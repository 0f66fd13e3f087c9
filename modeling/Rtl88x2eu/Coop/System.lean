import Rtl88x2eu.Coop.Submit

/-!
# Runs of the driver

The operations on the cooperative group and the paths of frames through it as the labels of one
transition system. A label carries what the step takes from outside: the caller's adapter, a frame,
what the kernel answers, and what the rest of the driver has done to an adapter.

## Main definitions

* `Event`, `World.next`: the steps
* `Started`
-/

namespace Rtl88x2eu.Coop

inductive Event
  | setPrimary (adapter : AdapterId)
  | addHelper (adapter : AdapterId)
  | removeHelper (adapter : AdapterId)
  | removeAdapter (adapter : AdapterId)
  | pair (adapter : AdapterId) (ifname : IfName)
  | unpair (ifname : IfName)
  | autoPair (adapter : AdapterId) (val : Option ℤ) (devs : List NetDev)
  | bindSession (ok : Tfm → Bool) (opens : AdapterId → Bool) (primary : AdapterId)
  | unbindSession
  | resetStats
  | deinit
  /-- The current channel of an adapter changes, and `rtw_coop_rx_notify_channel_switch` follows. -/
  | switchChannel (adapter : AdapterId) (cur : ChannelDef)
  | setIfUp (adapter : AdapterId) (up : Bool)
  | submit (helper : AdapterId) (f : RecvFrame)
  | drain (env : Env) (k : KernelCrypto)
  /-- `coop_rx_kernel_decrypt` on a frame, with an adapter that has the given keys and stations. -/
  | kernelDecrypt (k : KernelCrypto) (a : Adapter) (f : RecvFrame)
  /-- The duplicate and packet number checks of an adapter's own receive path. -/
  | decache (adapter : AdapterId) (s : StaId) (f : RecvFrame)
  | adapterStep (adapter : AdapterId) (a : Adapter)

/-- `coop_rx_kernel_decrypt`, as far as the group's transforms go. -/
def kernelDecrypt (k : KernelCrypto) (w : World) (a : Adapter) (f : RecvFrame) : World :=
  match w.grp with
  | none => w
  | some g => w.storeCrypto g (coopRxKernelDecrypt k (w.groupCrypto g) a f).2

/-- The step of the driver on an event: `none` when the tasklet has nothing to drain. -/
def World.next (w : World) : Event → Option World
  | .setPrimary a => some (Coop.setPrimary w a).2
  | .addHelper a => some (Coop.addHelper w a).2
  | .removeHelper a => some (Coop.removeHelper w a).2
  | .removeAdapter a => some (Coop.removeAdapter w a)
  | .pair a name => some (storePair w a name).2
  | .unpair name => some (storeUnpair w name).2
  | .autoPair a val devs => some (storeAutoPair w a val devs).2
  | .bindSession ok opens p => some (Coop.bindSession ok opens w p).2
  | .unbindSession => some (Coop.unbindSession w)
  | .resetStats => some (storeResetStats w).2
  | .deinit => some (Coop.deinit w)
  | .switchChannel a cur =>
    some (notifyChannelSwitch (w.setRadio a { w.radio a with cur }) a)
  | .setIfUp a up => some (w.setRadio a { w.radio a with ifUp := up })
  | .submit h f => some (submitHelperFrame w h f).2
  | .drain env k => drainIteration env k w
  | .kernelDecrypt k a f => some (Coop.kernelDecrypt k w a f)
  | .decache i s f => some (w.setAdapter i (decacheDataFrame (w.adapter i) s f).2)
  | .adapterStep i a => some (w.setAdapter i a)

/-- The driver behind `rtw_coop_rx_init`, over adapters in any state. -/
structure Started (w : World) : Prop where
  grp : w.grp = some {}
  kernel : w.kernel.live = []
  doubleFree : w.kernel.doubleFree = false

/-- A write to `pair` is no operation, or makes the adapter the primary and may add a helper. -/
theorem storePair_cases (w : World) (a : AdapterId) (name : IfName) :
    (storePair w a name).2 = w ∨ (storePair w a name).2 = (setPrimary w a).2 ∨
      ∃ h, (storePair w a name).2 = (addHelper (setPrimary w a).2 h).2 := by
  unfold storePair
  split
  · exact Or.inl rfl
  · split
    · next heq => exact Or.inr (Or.inl (by rw [heq]))
    · next heq =>
      split
      · exact Or.inr (Or.inr ⟨_, by rw [heq]⟩)
      · exact Or.inr (Or.inl (by rw [heq]))
      · exact Or.inr (Or.inl (by rw [heq]))

theorem autoDiscoverHelpers_induction {P : World → Prop}
    (hadd : ∀ w h, P w → P (addHelper w h).2) (devs : List NetDev) {w : World} (hw : P w)
    (p : AdapterId) : P (autoDiscoverHelpers w p devs) := by
  unfold autoDiscoverHelpers
  induction devs generalizing w with
  | nil => exact hw
  | cons d devs ih =>
    rw [List.foldl_cons]
    refine ih ?_
    match d with
    | .foreign | .rtw none => exact hw
    | .rtw (some candidate) =>
      dsimp only
      split
      · exact hw
      · exact hadd w candidate hw

theorem storeAutoPair_induction {P : World → Prop} (hset : ∀ w a, P w → P (setPrimary w a).2)
    (hadd : ∀ w h, P w → P (addHelper w h).2) {w : World} (hw : P w) (a : AdapterId)
    (val : Option ℤ) (devs : List NetDev) : P (storeAutoPair w a val devs).2 := by
  have hprimary := hset w a hw
  unfold storeAutoPair
  split
  · exact hw
  · split
    · next heq =>
      rw [heq] at hprimary
      exact hprimary
    · next heq =>
      rw [heq] at hprimary
      exact autoDiscoverHelpers_induction hadd devs hprimary a

theorem storePair_induction {P : World → Prop} (hset : ∀ w a, P w → P (setPrimary w a).2)
    (hadd : ∀ w h, P w → P (addHelper w h).2) {w : World} (hw : P w) (a : AdapterId)
    (name : IfName) : P (storePair w a name).2 := by
  obtain heq | heq | ⟨h, heq⟩ := storePair_cases w a name
  · rw [heq]
    exact hw
  · rw [heq]
    exact hset w a hw
  · rw [heq]
    exact hadd _ h (hset w a hw)

/-- A write to `unpair` removes a helper, or is no operation. -/
theorem storeUnpair_cases (w : World) (name : IfName) :
    (storeUnpair w name).2 = w ∨ ∃ h, (storeUnpair w name).2 = (removeHelper w h).2 := by
  unfold storeUnpair
  split
  · exact Or.inl rfl
  · exact Or.inl rfl
  · exact Or.inr ⟨_, rfl⟩
  · exact Or.inl rfl
  · exact Or.inl rfl

/-! ## What the steps do to the group -/

theorem foldl_enableHelperMonitor_grp (opens : AdapterId → Bool) (ch : ℕ) (hs : List AdapterId)
    (w : World) :
    (hs.foldl (enableHelperMonitor opens ch) w).grp = w.grp ∧
      (hs.foldl (enableHelperMonitor opens ch) w).kernel = w.kernel := by
  induction hs generalizing w with
  | nil => exact ⟨rfl, rfl⟩
  | cons h hs ih => exact ih (enableHelperMonitor opens ch w h)

theorem foldl_retuneHelper_grp (new : ChannelDef) (hs : List AdapterId) (w : World) :
    (hs.foldl (retuneHelper new) w).grp = w.grp ∧
      (hs.foldl (retuneHelper new) w).kernel = w.kernel := by
  induction hs generalizing w with
  | nil => exact ⟨rfl, rfl⟩
  | cons h hs ih =>
    have hstep : (retuneHelper new w h).grp = w.grp ∧ (retuneHelper new w h).kernel = w.kernel := by
      unfold retuneHelper
      dsimp only
      split <;> exact ⟨rfl, rfl⟩
    obtain ⟨hgrp, hkernel⟩ := ih (retuneHelper new w h)
    exact ⟨hgrp.trans hstep.1, hkernel.trans hstep.2⟩

def Group.setPrimary (g : Group) (a : AdapterId) : Group :=
  if g.primary ≠ none ∧ g.primary ≠ some a then g
  else { g with primary := some a, state := if g.state = .disabled then .idle else g.state }

/-- A helper can join. -/
def Group.admits (g : Group) (a : AdapterId) : Bool :=
  g.primary.isSome && g.helpers.length < coopMaxHelpers && !g.helpers.elem a

def Group.join (g : Group) (a : AdapterId) : Group :=
  ({ g with
    helpers := g.helpers ++ [a]
    state := if g.state = .idle then .binding else g.state } : Group).count .pairEvents

def Group.clear (g : Group) : Group :=
  ({ g.purge with primary := none, helpers := [], state := .idle } : Group).count .fallbackEvents

def Group.unbind (g : Group) : Group :=
  if g.state = .active ∨ g.state = .binding then
    { g with
      state := if g.primary.isSome then .idle else .disabled
      boundBssid := .zero
      boundChannel := 0 }
  else g

theorem setPrimary_grp (w : World) (a : AdapterId) :
    (setPrimary w a).2.grp = w.grp.map (·.setPrimary a) := by
  unfold setPrimary Group.setPrimary
  cases hg : w.grp with
  | none => exact hg
  | some g =>
    dsimp only [Option.map_some]
    split
    · exact hg
    · rfl

theorem addHelper_grp (w : World) (a : AdapterId) :
    (addHelper w a).2.grp = w.grp.map fun g => if g.admits a then g.join a else g := by
  unfold addHelper
  cases hg : w.grp with
  | none => exact hg
  | some g =>
    dsimp only [Option.map_some]
    by_cases hnone : g.primary = none
    · simp [Group.admits, hnone, hg]
    rw [if_neg hnone]
    by_cases hfull : coopMaxHelpers ≤ g.helpers.length
    · simp [Group.admits, if_pos hfull, not_lt.mpr hfull, hg]
    rw [if_neg hfull]
    by_cases hmem : a ∈ g.helpers
    · simp [Group.admits, hmem, hg]
    rw [if_neg hmem]
    have hadmits : g.admits a := by
      simp [Group.admits, Option.isSome_iff_ne_none.mpr hnone, not_le.mp hfull, hmem]
    rw [if_pos hadmits]
    rfl

theorem removeHelper_grp (w : World) (a : AdapterId) :
    (removeHelper w a).2.grp =
      w.grp.map fun g => if a ∈ g.helpers then g.dropHelper a else g := by
  unfold removeHelper
  cases hg : w.grp with
  | none => exact hg
  | some g =>
    dsimp only [Option.map_some]
    split
    · rfl
    · exact hg

theorem dropPrimary_grp (w : World) (a : AdapterId) :
    (dropPrimary w a).grp = w.grp.map fun g => if g.primary = some a then g.clear else g := by
  unfold dropPrimary
  cases hg : w.grp with
  | none => exact hg
  | some g =>
    dsimp only [Option.map_some]
    split
    · rfl
    · exact hg

theorem bindSession_grp (ok : Tfm → Bool) (opens : AdapterId → Bool) (w : World) (p : AdapterId) :
    (bindSession ok opens w p).2.grp = w.grp.map fun g =>
      if g.primary = some p ∧ bindable (w.adapter p) then
        (cryptoInit ok w (g.bind (w.adapter p) (w.radio p))).2
      else g := by
  unfold bindSession
  cases hg : w.grp with
  | none => exact hg
  | some g =>
    dsimp only [Option.map_some]
    by_cases hp : g.primary = some p
    · rw [if_neg (not_not.mpr hp)]
      by_cases hb : bindable (w.adapter p)
      · rw [if_neg (by simp [hb]), if_pos ⟨hp, hb⟩]
        exact (foldl_enableHelperMonitor_grp _ _ _ _).1
      · rw [if_pos (by simp [hb]), if_neg fun h => hb h.2]
        exact hg
    · rw [if_pos hp, if_neg fun h => hp h.1]
      exact hg

theorem unbindSession_grp (w : World) :
    (unbindSession w).grp = w.grp.map fun g => (cryptoDeinit w g).2.unbind.purge := by
  unfold unbindSession
  cases hg : w.grp with
  | none => exact hg
  | some g => rfl

def mustRetune (w : World) (g : Group) (a : AdapterId) : Bool :=
  let new := (w.radio a).cur
  g.state = .active && g.primary = some a && new.channel ≠ 0 &&
    !(new.channel = g.boundChannel && new.bw = g.boundBw)

theorem notifyChannelSwitch_grp (w : World) (a : AdapterId) :
    (notifyChannelSwitch w a).grp = w.grp.map fun g =>
      if mustRetune w g a then
        { g with boundChannel := (w.radio a).cur.channel, boundBw := (w.radio a).cur.bw }
      else g := by
  unfold notifyChannelSwitch
  cases hg : w.grp with
  | none => exact hg
  | some g =>
    dsimp only [Option.map_some]
    by_cases hactive : g.state ≠ .active ∨ g.primary ≠ some a
    · rw [if_pos hactive, if_neg]
      · exact hg
      · simp only [mustRetune]
        obtain hs | hp := hactive
        · simp [hs]
        · simp [hp]
    rw [if_neg hactive]
    push Not at hactive
    by_cases hsame : (w.radio a).cur.channel = 0 ∨
        ((w.radio a).cur.channel = g.boundChannel ∧ (w.radio a).cur.bw = g.boundBw)
    · rw [if_pos hsame, if_neg]
      · exact hg
      · simp only [mustRetune]
        obtain h0 | ⟨hch, hbw⟩ := hsame
        · simp [h0]
        · simp [hch, hbw]
    · rw [if_neg hsame, if_pos]
      · exact (foldl_retuneHelper_grp _ _ _).1
      · push Not at hsame
        simp only [mustRetune, hactive, decide_true, Bool.true_and, Bool.and_eq_true,
          decide_eq_true_eq, Bool.not_eq_true', Bool.and_eq_false_iff, decide_eq_false_iff_not]
        exact ⟨hsame.1, or_iff_not_imp_left.mpr fun h => hsame.2 (not_not.mp h)⟩

structure Group.SameControl (g g' : Group) : Prop where
  state : g'.state = g.state
  primary : g'.primary = g.primary
  helpers : g'.helpers = g.helpers
  boundBssid : g'.boundBssid = g.boundBssid
  boundChannel : g'.boundChannel = g.boundChannel
  boundBw : g'.boundBw = g.boundBw

/-- The events that are about frames, keys and interfaces, not about the session. -/
def Event.isTraffic : Event → Bool
  | .resetStats | .setIfUp _ _ | .submit _ _ | .drain _ _ | .kernelDecrypt _ _ _
  | .decache _ _ _ | .adapterStep _ _ => true
  | _ => false

theorem submitHelperFrame_grp (w : World) (h : AdapterId) (f : RecvFrame) {g : Group}
    (hg : w.grp = some g) :
    ∃ g', (submitHelperFrame w h f).2.grp = some g' ∧ g.SameControl g' ∧ g'.tfm = g.tfm ∧
      g'.cachedKey = g.cachedKey := by
  unfold submitHelperFrame submitEnqueue
  simp only [hg]
  cases g.primary with
  | none => exact ⟨g, hg, ⟨rfl, rfl, rfl, rfl, rfl, rfl⟩, rfl, rfl⟩
  | some p =>
    dsimp only
    split
    · exact ⟨g, hg, ⟨rfl, rfl, rfl, rfl, rfl, rfl⟩, rfl, rfl⟩
    split
    · split <;> exact ⟨_, rfl, ⟨rfl, rfl, rfl, rfl, rfl, rfl⟩, rfl, rfl⟩
    split
    · exact ⟨_, rfl, ⟨rfl, rfl, rfl, rfl, rfl, rfl⟩, rfl, rfl⟩
    split <;> exact ⟨_, rfl, ⟨rfl, rfl, rfl, rfl, rfl, rfl⟩, rfl, rfl⟩

theorem drainIteration_cases {env : Env} {k : KernelCrypto} {w w' : World}
    (h : drainIteration env k w = some w') :
    ∃ g p f q, w.grp = some g ∧ g.primary = some p ∧ g.pendingQueue = f :: q ∧
      w' = (w.setAdapter p (drainFrame env k (w.groupCrypto g) (w.adapter p) f).2).storeCrypto
        (({ g with pendingQueue := q, pendingCount := g.pendingCount - 1 } : Group).count
          (drainStat env k (w.groupCrypto g) (w.adapter p) f))
        (drainFrame env k (w.groupCrypto g) (w.adapter p) f).1 := by
  unfold drainIteration at h
  split at h
  · simp at h
  · next g hg =>
    split at h
    · next p f q hp hq =>
      dsimp only at h
      split at h
      · simp at h
      · exact ⟨g, p, f, q, hg, hp, hq, (Option.some.inj h).symm⟩
    · simp at h

theorem drainIteration_grp {env : Env} {k : KernelCrypto} {w w' : World} {g : Group}
    (hg : w.grp = some g) (h : drainIteration env k w = some w') :
    ∃ g', w'.grp = some g' ∧ g.SameControl g' := by
  obtain ⟨g₀, p, f, q, hg₀, -, -, rfl⟩ := drainIteration_cases h
  obtain rfl := Option.some.inj (hg.symm.trans hg₀)
  exact ⟨_, rfl, ⟨rfl, rfl, rfl, rfl, rfl, rfl⟩⟩

/-- **Traffic leaves the session alone.** -/
theorem next_sameControl {w w' : World} {e : Event} {g : Group} (he : e.isTraffic)
    (hg : w.grp = some g) (h : w.next e = some w') :
    ∃ g', w'.grp = some g' ∧ g.SameControl g' := by
  have hself : g.SameControl g := ⟨rfl, rfl, rfl, rfl, rfl, rfl⟩
  cases e with
  | resetStats =>
    obtain rfl := Option.some.inj h
    simp only [storeResetStats, hg]
    exact ⟨_, rfl, ⟨rfl, rfl, rfl, rfl, rfl, rfl⟩⟩
  | setIfUp a up =>
    obtain rfl := Option.some.inj h
    exact ⟨g, hg, hself⟩
  | submit a f =>
    obtain rfl := Option.some.inj h
    obtain ⟨g', hg', hsame, -, -⟩ := submitHelperFrame_grp w a f hg
    exact ⟨g', hg', hsame⟩
  | drain env k => exact drainIteration_grp hg h
  | kernelDecrypt k a f =>
    obtain rfl := Option.some.inj h
    simp only [kernelDecrypt, hg]
    exact ⟨_, rfl, ⟨rfl, rfl, rfl, rfl, rfl, rfl⟩⟩
  | decache a s f =>
    obtain rfl := Option.some.inj h
    exact ⟨g, hg, hself⟩
  | adapterStep i a =>
    obtain rfl := Option.some.inj h
    exact ⟨g, hg, hself⟩
  | setPrimary | addHelper | removeHelper | removeAdapter | pair | unpair | autoPair
  | bindSession | unbindSession | deinit | switchChannel => simp [Event.isTraffic] at he

theorem next_grp_none {w w' : World} {e : Event} (hg : w.grp = none) (h : w.next e = some w') :
    w'.grp = none := by
  cases e with
  | drain => simp [World.next, drainIteration, hg] at h
  | pair a name =>
    obtain rfl := Option.some.inj h
    cases name <;> simp [storePair, setPrimary, hg]
  | unpair name =>
    obtain rfl := Option.some.inj h
    match name with
    | .malformed | .notFound | .dev .foreign | .dev (.rtw none) => exact hg
    | .dev (.rtw (some a)) => simp [storeUnpair, removeHelper, hg]
  | autoPair a val devs =>
    obtain rfl := Option.some.inj h
    by_cases hval : val = some 1 <;> simp [storeAutoPair, setPrimary, hg, hval]
  | _ =>
    obtain rfl := Option.some.inj h
    simp [setPrimary, addHelper, removeHelper, removeAdapter, dropPrimary, bindSession,
      unbindSession, storeResetStats, deinit, notifyChannelSwitch, submitHelperFrame,
      kernelDecrypt, hg]

end Rtl88x2eu.Coop
