import Rtl88x2eu.Coop.GroupState

/-!
# The channel of the helpers

A helper is tuned when the session is bound and when the primary's channel changes. The handler of
the change compares channel and bandwidth with those of the session and leaves the helpers alone
when they are the same, whatever the secondary channel offset is and whichever helpers the last
tuning has reached.

## Main definitions

* `HelpersFollow`, `Followed`, `helpersInTune`

## Main results

* `helpers_follow_iff`: the helpers follow the primary exactly if no skipped change leaves one
  behind
-/

namespace Rtl88x2eu.Coop

open Transition

variable {w w' : World} {g : Group} {p : AdapterId}

/-- The helpers that are up are tuned like the primary. -/
def HelpersFollow (w : World) : Prop :=
  ∀ g ∈ w.grp, g.state = .active → ∀ p ∈ g.primary, ∀ h ∈ g.helpers,
    (w.radio h).ifUp → (w.radio h).tuned = some (w.radio p).cur

theorem retuneHelper_radio (new : ChannelDef) (w : World) (helper i : AdapterId) :
    (retuneHelper new w helper).radio i =
      if i = helper ∧ (w.radio i).ifUp then { w.radio i with tuned := some new }
      else w.radio i := by
  unfold retuneHelper
  dsimp only
  by_cases heq : i = helper
  · subst heq
    by_cases hup : (w.radio i).ifUp
    · simp [World.setRadio, hup]
    · simp [hup]
  · have hne : ¬(i = helper ∧ (w.radio i).ifUp) := fun hc => heq hc.1
    rw [if_neg hne]
    split
    · simp [World.setRadio, heq]
    · rfl

theorem foldl_retuneHelper_radio (new : ChannelDef) (hs : List AdapterId) (w : World)
    (i : AdapterId) : (hs.foldl (retuneHelper new) w).radio i =
      if i ∈ hs ∧ (w.radio i).ifUp then { w.radio i with tuned := some new }
      else w.radio i := by
  induction hs generalizing w with
  | nil => simp
  | cons h hs ih =>
    rw [List.foldl_cons, ih, retuneHelper_radio]
    by_cases hup : (w.radio i).ifUp
    · by_cases hih : i = h
      · subst hih
        simp [hup]
      · simp [hih, hup]
    · simp [hup]

theorem enableHelperMonitor_radio (opens : AdapterId → Bool) (channel : ℕ) {w : World}
    (hg : w.grp = some g) (hp : g.primary = some p) (helper i : AdapterId) :
    ((enableHelperMonitor opens channel w helper).radio i).cur = (w.radio i).cur ∧
      ((enableHelperMonitor opens channel w helper).radio i).tuned =
        if i = helper then some ⟨channel, (w.radio p).cur.offset, (w.radio p).cur.bw⟩
        else (w.radio i).tuned := by
  unfold enableHelperMonitor
  simp only [hg, Option.bind_some, hp]
  by_cases heq : i = helper
  · subst heq
    simp [World.setRadio]
  · simp [World.setRadio, heq]

theorem foldl_enableHelperMonitor_radio (opens : AdapterId → Bool) (channel : ℕ)
    (hs : List AdapterId) {w : World} (hg : w.grp = some g) (hp : g.primary = some p)
    (i : AdapterId) :
    ((hs.foldl (enableHelperMonitor opens channel) w).radio i).cur = (w.radio i).cur ∧
      ((hs.foldl (enableHelperMonitor opens channel) w).radio i).tuned =
        if i ∈ hs then some ⟨channel, (w.radio p).cur.offset, (w.radio p).cur.bw⟩
        else (w.radio i).tuned := by
  induction hs generalizing w with
  | nil => simp
  | cons h hs ih =>
    obtain ⟨hcur, htuned⟩ := ih (w := enableHelperMonitor opens channel w h) hg
    obtain ⟨hcur₁, htuned₁⟩ := enableHelperMonitor_radio opens channel hg hp h i
    have hprimary := (enableHelperMonitor_radio opens channel hg hp h p).1
    rw [List.foldl_cons, hcur, htuned, hcur₁, htuned₁, hprimary]
    refine ⟨rfl, ?_⟩
    by_cases hmem : i ∈ hs
    · simp [hmem]
    · simp [hmem]

theorem bindSession_helpersFollow (ok : Tfm → Bool) (opens : AdapterId → Bool)
    (hg : w.grp = some g) (hp : g.primary = some p) (hb : bindable (w.adapter p)) :
    HelpersFollow (bindSession ok opens w p).2 := by
  intro g' hg' _ p' hp' h hh _
  unfold bindSession at hg' ⊢
  simp only [hg, hp, ne_eq, not_true_eq_false, if_false, hb, Bool.not_true, Bool.false_eq_true]
    at hg' ⊢
  generalize hw₁ : (cryptoInit ok w (g.bind (w.adapter p) (w.radio p))).1.setGrp
    (cryptoInit ok w (g.bind (w.adapter p) (w.radio p))).2 = w₁ at hg' ⊢
  have hgrp : w₁.grp = some (cryptoInit ok w (g.bind (w.adapter p) (w.radio p))).2 := by
    rw [← hw₁]
    rfl
  have hradio : w₁.radio = w.radio := by
    rw [← hw₁]
    rfl
  rw [(foldl_enableHelperMonitor_grp opens _ _ w₁).1, hgrp] at hg'
  obtain rfl := Option.some.inj hg'
  obtain rfl := Option.some.inj (hp.symm.trans hp')
  obtain ⟨-, htuned⟩ := foldl_enableHelperMonitor_radio opens (w.radio p).cur.channel g.helpers
    hgrp hp h
  obtain ⟨hcur, -⟩ := foldl_enableHelperMonitor_radio opens (w.radio p).cur.channel g.helpers
    hgrp hp p
  rw [if_pos (show h ∈ g.helpers from hh)] at htuned
  refine htuned.trans ?_
  rw [hradio] at hcur ⊢
  exact congrArg some hcur.symm

theorem notifyChannelSwitch_helpersFollow (hg : w.grp = some g) (hmust : mustRetune w g p) :
    HelpersFollow (notifyChannelSwitch w p) := by
  intro g' hg' _ p' hp' h hh hup
  have hgrp := notifyChannelSwitch_grp w p
  rw [hg, Option.map_some, if_pos hmust] at hgrp
  obtain rfl := Option.some.inj (hgrp.symm.trans hg')
  simp only [mustRetune, Bool.and_eq_true, decide_eq_true_eq, Bool.not_eq_true',
    Bool.and_eq_false_iff, decide_eq_false_iff_not] at hmust
  obtain ⟨⟨⟨hactive, hprimary⟩, hchannel⟩, hother⟩ := hmust
  obtain rfl := Option.some.inj (hprimary.symm.trans hp')
  have hmoves : ¬((w.radio p).cur.channel = 0 ∨
      ((w.radio p).cur.channel = g.boundChannel ∧ (w.radio p).cur.bw = g.boundBw)) := by
    rintro (h0 | ⟨hch, hbw⟩)
    · exact hchannel h0
    · exact hother.elim (absurd hch) (absurd hbw)
  unfold notifyChannelSwitch at hup ⊢
  simp only [hg, if_neg (not_or.mpr ⟨not_not.mpr hactive, not_not.mpr hprimary⟩),
    if_neg hmoves] at hup ⊢
  rw [foldl_retuneHelper_radio] at hup ⊢
  rw [foldl_retuneHelper_radio]
  have hup' : (w.radio h).ifUp := by
    split at hup
    · next hboth => exact hboth.2
    · exact hup
  rw [if_pos ⟨hh, hup'⟩]
  split <;> rfl

/-! ## Runs -/

def Event.syncs (w : World) (e : Event) : Bool :=
  match w.grp with
  | none => false
  | some g =>
    match e with
    | .bindSession _ _ p => g.primary = some p && bindable (w.adapter p)
    | .switchChannel a cur => g.primary = some a && cur.channel ≠ 0
    | _ => false

/-- The driver, with the states behind its binds and channel changes. -/
structure Followed where
  world : World
  synced : List World := []

def Followed.InStep (s : Followed) : Prop := ∀ w ∈ s.synced, HelpersFollow w

def Followed.next (s : Followed) (e : Event) : Option Followed :=
  (s.world.next e).map fun w => ⟨w, if e.syncs s.world then s.synced ++ [w] else s.synced⟩

def skipsChange (g : Group) (a : AdapterId) (cur : ChannelDef) : Bool :=
  g.state = .active && g.primary = some a && cur.channel ≠ 0 && cur.channel = g.boundChannel &&
    cur.bw = g.boundBw

/-- A change that the handler skips finds the helpers tuned. -/
def helpersInTune (w : World) : Event → Bool
  | .switchChannel a cur =>
    match w.grp with
    | none => true
    | some g =>
      !skipsChange g a cur || g.helpers.all fun h =>
        !(w.radio h).ifUp || (w.radio h).tuned = some ⟨g.boundChannel, cur.offset, g.boundBw⟩
  | _ => true

theorem setRadio_cur_radio (w : World) (a i : AdapterId) (cur : ChannelDef) :
    ((w.setRadio a { w.radio a with cur }).radio i).ifUp = (w.radio i).ifUp ∧
      ((w.setRadio a { w.radio a with cur }).radio i).tuned = (w.radio i).tuned := by
  by_cases heq : i = a
  · subst heq
    simp [World.setRadio]
  · simp [World.setRadio, heq]

theorem switchChannel_helpersFollow_iff {cur : ChannelDef} (hg : w.grp = some g)
    (hp : g.primary = some p) (hchannel : cur.channel ≠ 0)
    (hnext : w.next (.switchChannel p cur) = some w') :
    HelpersFollow w' ↔ helpersInTune w (.switchChannel p cur) := by
  obtain rfl := Option.some.inj hnext
  have hcur : ((w.setRadio p { w.radio p with cur }).radio p).cur = cur := by
    simp [World.setRadio]
  have hradio := fun i => setRadio_cur_radio w p i cur
  generalize hw₁ : w.setRadio p { w.radio p with cur } = w₁ at hcur hradio
  have hg₁ : w₁.grp = some g := by
    rw [← hw₁]
    exact hg
  simp only [helpersInTune, hg]
  by_cases hactive : g.state = .active
  · by_cases hsame : cur.channel = g.boundChannel ∧ cur.bw = g.boundBw
    · -- the handler returns
      have hnotify : notifyChannelSwitch w₁ p = w₁ := by
        unfold notifyChannelSwitch
        simp [hg₁, hactive, hp, hcur, hsame]
      have hskips : skipsChange g p cur := by
        simp [skipsChange, hactive, hp, hsame.1, hsame.2]
        exact hsame.1 ▸ hchannel
      have hdef : (⟨g.boundChannel, cur.offset, g.boundBw⟩ : ChannelDef) = cur := by
        rw [← hsame.1, ← hsame.2]
      rw [hnotify, hskips, hdef]
      simp only [Bool.not_true, Bool.false_or, List.all_eq_true, Bool.or_eq_true,
        Bool.not_eq_true', decide_eq_true_eq]
      constructor
      · intro h i hi
        refine or_iff_not_imp_left.mpr fun hup => ?_
        have htuned := h g hg₁ hactive p hp i hi (by rw [(hradio i).1]; simpa using hup)
        rw [(hradio i).2, hcur] at htuned
        exact htuned
      · intro h g' hg' _ p' hp' i hi hup
        obtain rfl := Option.some.inj (hg₁.symm.trans hg')
        obtain rfl := Option.some.inj (hp.symm.trans hp')
        rw [(hradio i).1] at hup
        rw [(hradio i).2, hcur]
        exact (h i hi).resolve_left (by simp [hup])
    · -- the handler moves the helpers
      have hmust : mustRetune w₁ g p := by
        simp only [mustRetune, hactive, hp, hcur, decide_true, Bool.true_and, ne_eq, hchannel,
          not_false_eq_true, Bool.not_eq_true', Bool.and_eq_false_iff, decide_eq_false_iff_not]
        exact not_and_or.mp hsame
      have hskips : skipsChange g p cur = false := by
        simp only [skipsChange, Bool.and_eq_false_iff, decide_eq_false_iff_not]
        obtain hch | hbw := not_and_or.mp hsame
        · exact Or.inl (Or.inr hch)
        · exact Or.inr hbw
      simp [hskips, notifyChannelSwitch_helpersFollow hg₁ hmust]
  · have hnotify : notifyChannelSwitch w₁ p = w₁ := by
      unfold notifyChannelSwitch
      simp [hg₁, hactive]
    have hskips : skipsChange g p cur = false := by simp [skipsChange, hactive]
    rw [hnotify, hskips]
    refine iff_of_true (fun g' hg' hs => ?_) rfl
    obtain rfl := Option.some.inj (hg₁.symm.trans hg')
    exact absurd hs hactive

theorem next_inStep_iff {s s' : Followed} {e : Event} (hnext : s.next e = some s') :
    s'.InStep ↔ s.InStep ∧ helpersInTune s.world e := by
  obtain ⟨w', hw', rfl⟩ := Option.map_eq_some_iff.mp hnext
  unfold Followed.InStep
  dsimp only
  by_cases hsyncs : e.syncs s.world
  · rw [if_pos hsyncs]
    simp only [List.mem_append, List.mem_singleton, or_imp, forall_and, forall_eq]
    refine and_congr_right fun _ => ?_
    cases hg : s.world.grp with
    | none => simp [Event.syncs, hg] at hsyncs
    | some g =>
      simp only [Event.syncs, hg] at hsyncs
      cases e with
      | bindSession ok opens p =>
        obtain rfl := Option.some.inj hw'
        simp only [Bool.and_eq_true, decide_eq_true_eq] at hsyncs
        exact iff_of_true (bindSession_helpersFollow ok opens hg hsyncs.1 hsyncs.2) rfl
      | switchChannel a cur =>
        simp only [Bool.and_eq_true, decide_eq_true_eq] at hsyncs
        exact switchChannel_helpersFollow_iff hg hsyncs.1 hsyncs.2 hw'
      | _ => simp at hsyncs
  · rw [if_neg hsyncs, iff_self_and]
    intro _
    -- a change of another adapter, or to channel 0, is not one that the handler skips
    cases e with
    | switchChannel a cur =>
      cases hg : s.world.grp with
      | none => simp [helpersInTune, hg]
      | some g =>
        have hskips : skipsChange g a cur = false := by
          refine Bool.eq_false_iff.mpr fun hskips => hsyncs ?_
          simp only [skipsChange, Bool.and_eq_true, decide_eq_true_eq] at hskips
          simp only [Event.syncs, hg, Bool.and_eq_true, decide_eq_true_eq]
          exact ⟨hskips.1.1.1.2, hskips.1.1.2⟩
        simp [helpersInTune, hg, hskips]
    | _ => rfl

/-- **The helpers follow the primary's channel** behind every bind and every change of a run exactly
if no change that the handler skips finds one out of tune. -/
theorem helpers_follow_iff {es : List Event} {s : Followed}
    (hrun : run Followed.next ⟨w, []⟩ es = some s) :
    (∀ w' ∈ s.synced, HelpersFollow w') ↔
      Meets Followed.next (fun s e => helpersInTune s.world e) ⟨w, []⟩ es :=
  (@run_iff_meets _ _ Followed.next _ (fun _ => True) _ _ _ Followed.InStep
    (fun _ _ _ _ hnext => ⟨trivial, next_inStep_iff hnext⟩) trivial hrun).trans
    (and_iff_right nofun)

def switchRun : List Event :=
  bindRun ++ [.switchChannel 0 ⟨36, 1, 1⟩, .switchChannel 0 ⟨36, 1, 1⟩]

theorem helpers_follow_switch :
    ∃ s, run Followed.next ⟨idleWorld, []⟩ switchRun = some s ∧ s.synced.length = 3 ∧
      ∀ w' ∈ s.synced, HelpersFollow w' :=
  ⟨_, rfl, by decide +kernel,
    (@helpers_follow_iff idleWorld switchRun _ rfl).mpr (by decide +kernel)⟩

/-- A change of the secondary channel offset alone passes the helper by. -/
theorem not_helpers_follow :
    ¬∀ (w : World) (es : List Event) (s : Followed), Started w →
      run Followed.next ⟨w, []⟩ es = some s → ∀ w' ∈ s.synced, HelpersFollow w' := by
  intro h
  have hlast := h idleWorld (bindRun ++ [.switchChannel 0 ⟨36, 1, 1⟩, .switchChannel 0 ⟨36, 2, 1⟩])
    _ idleWorld_started rfl _ (List.mem_of_getElem? (i := 2) rfl) _ rfl rfl 0 rfl 1 (by decide)
    (by decide)
  revert hlast
  decide

end Rtl88x2eu.Coop
