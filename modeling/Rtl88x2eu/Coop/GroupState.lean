import Rtl88x2eu.Coop.System

/-!
# The state of the group

Two laws of the control operations over whole runs: no adapter is the primary and a helper at once,
and the session state says what the group's other fields hold. Both fail on operations that miss a
check or a clean-up; in runs without those steps they hold.

## Main definitions

* `RolesDisjoint`, `joinsItself`: the law of the roles, and the step that breaks it
* `StateMeans`, `leavesStateWrong`: the law of the session state, and the steps that break it
* `Watched`

## Main results

* `roles_disjoint`: no adapter has both roles
* `state_means`: what ACTIVE, BINDING, IDLE and DISABLED imply
-/

namespace Rtl88x2eu.Coop

open Transition

variable {w w' : World} {g g' : Group}

/-! ## Roles -/

structure RolesDisjoint (g : Group) : Prop where
  notMem : ∀ p, g.primary = some p → p ∉ g.helpers
  helpers_eq_nil : g.primary = none → g.helpers = []

/-- `rtw_coop_rx_add_helper` takes the primary for its own helper. -/
def joinsItself (w : World) (adapter : AdapterId) : Bool :=
  match w.grp with
  | none => false
  | some g => g.primary = some adapter && g.helpers.length < coopMaxHelpers

def givesBothRoles (w : World) : Event → Bool
  | .addHelper a => joinsItself w a
  | .pair a (.dev (.rtw (some h))) =>
    (setPrimary w a).1 = none && joinsItself (setPrimary w a).2 h
  | _ => false

theorem RolesDisjoint.of_eq (h : RolesDisjoint g) (hprimary : g'.primary = g.primary)
    (hhelpers : g'.helpers = g.helpers) : RolesDisjoint g' :=
  ⟨fun p hp => hhelpers ▸ h.notMem p (hprimary ▸ hp),
    fun hp => hhelpers ▸ h.helpers_eq_nil (hprimary ▸ hp)⟩

theorem RolesDisjoint.setPrimary (h : RolesDisjoint g) (a : AdapterId) :
    RolesDisjoint (g.setPrimary a) := by
  unfold Group.setPrimary
  split
  · exact h
  · next hfree =>
    refine ⟨fun p hp => ?_, nofun⟩
    obtain rfl := Option.some.inj hp
    by_cases hnone : g.primary = none
    · rw [h.helpers_eq_nil hnone]
      exact List.not_mem_nil
    · exact h.notMem a (by simpa [hnone] using hfree)

/-- A helper that is not the primary joins. -/
theorem RolesDisjoint.join (h : RolesDisjoint g) {a : AdapterId} (hadmits : g.admits a)
    (hother : g.primary ≠ some a) : RolesDisjoint (g.join a) := by
  refine ⟨fun p hp hmem => ?_, fun hp => ?_⟩
  · obtain hold | hnew := List.mem_append.mp hmem
    · exact h.notMem p hp hold
    · rw [List.mem_singleton] at hnew
      exact hother (hnew ▸ hp)
  · have hprimary : g.primary = none := hp
    simp [Group.admits, hprimary] at hadmits

theorem dropHelper_primary (g : Group) (a : AdapterId) : (g.dropHelper a).primary = g.primary := by
  unfold Group.dropHelper
  dsimp only
  split <;> rfl

theorem dropHelper_helpers (g : Group) (a : AdapterId) :
    (g.dropHelper a).helpers = g.helpers.erase a := by
  unfold Group.dropHelper
  dsimp only
  split <;> rfl

theorem RolesDisjoint.dropHelper (h : RolesDisjoint g) (a : AdapterId) :
    RolesDisjoint (g.dropHelper a) := by
  refine ⟨fun p hp hmem => ?_, fun hp => ?_⟩
  · rw [dropHelper_primary] at hp
    rw [dropHelper_helpers] at hmem
    exact h.notMem p hp (List.mem_of_mem_erase hmem)
  · rw [dropHelper_primary] at hp
    rw [dropHelper_helpers, h.helpers_eq_nil hp]
    rfl

theorem RolesDisjoint.clear (g : Group) : RolesDisjoint g.clear := ⟨nofun, fun _ => rfl⟩

def World.RolesDisjoint (w : World) : Prop := ∀ g ∈ w.grp, Coop.RolesDisjoint g

theorem World.RolesDisjoint.of_map {F : Group → Group} (h : w.RolesDisjoint)
    (hF : ∀ g ∈ w.grp, Coop.RolesDisjoint g → Coop.RolesDisjoint (F g))
    (hgrp : w'.grp = w.grp.map F) : w'.RolesDisjoint := by
  intro g' hg'
  rw [hgrp] at hg'
  obtain ⟨g, hg, rfl⟩ := Option.map_eq_some_iff.mp hg'
  exact hF g hg (h g hg)

theorem setPrimary_rolesDisjoint (h : w.RolesDisjoint) (a : AdapterId) :
    (setPrimary w a).2.RolesDisjoint :=
  h.of_map (fun _ _ hg => hg.setPrimary a) (setPrimary_grp w a)

theorem addHelper_rolesDisjoint (h : w.RolesDisjoint) {a : AdapterId}
    (ha : joinsItself w a = false) : (addHelper w a).2.RolesDisjoint := by
  refine h.of_map (fun g hg hroles => ?_) (addHelper_grp w a)
  split
  · next hadmits =>
    refine hroles.join hadmits fun hself => ?_
    simp only [Group.admits, Bool.and_eq_true, decide_eq_true_eq] at hadmits
    have hgrp : w.grp = some g := hg
    simp [joinsItself, hgrp, hself, hadmits.1.2] at ha
  · exact hroles

theorem removeHelper_rolesDisjoint (h : w.RolesDisjoint) (a : AdapterId) :
    (removeHelper w a).2.RolesDisjoint := by
  refine h.of_map (fun g _ hroles => ?_) (removeHelper_grp w a)
  split
  · exact hroles.dropHelper a
  · exact hroles

theorem dropPrimary_rolesDisjoint (h : w.RolesDisjoint) (a : AdapterId) :
    (dropPrimary w a).RolesDisjoint := by
  refine h.of_map (fun g _ hroles => ?_) (dropPrimary_grp w a)
  split
  · exact RolesDisjoint.clear g
  · exact hroles

theorem autoDiscoverHelpers_rolesDisjoint (devs : List NetDev) {p : AdapterId}
    (h : w.RolesDisjoint) (hp : ∀ g ∈ w.grp, g.primary = some p) :
    (autoDiscoverHelpers w p devs).RolesDisjoint := by
  unfold autoDiscoverHelpers
  induction devs generalizing w with
  | nil => exact h
  | cons d devs ih =>
    rw [List.foldl_cons]
    match d with
    | .foreign | .rtw none => exact ih h hp
    | .rtw (some candidate) =>
      by_cases hself : candidate = p
      · simp only [if_pos hself]
        exact ih h hp
      · simp only [if_neg hself]
        have hjoin : joinsItself w candidate = false := by
          unfold joinsItself
          split
          · rfl
          · next g hg => simp [hp g hg, Ne.symm hself]
        refine ih (addHelper_rolesDisjoint h hjoin) fun g' hg' => ?_
        rw [addHelper_grp] at hg'
        obtain ⟨g, hg, rfl⟩ := Option.map_eq_some_iff.mp hg'
        split <;> exact hp g hg

/-- Behind a `rtw_coop_rx_set_primary` that succeeds, the adapter is the primary. -/
theorem setPrimary_primary {a : AdapterId} (h : (setPrimary w a).1 = none) :
    ∀ g ∈ (setPrimary w a).2.grp, g.primary = some a := by
  unfold setPrimary at h ⊢
  split
  · next hg => simp [hg] at h
  · next g hg =>
    rw [hg] at h
    dsimp only at h
    split
    · next hbusy => simp [if_pos hbusy] at h
    · intro g' hg'
      obtain rfl := Option.some.inj hg'
      rfl

theorem bindSession_rolesDisjoint (ok : Tfm → Bool) (opens : AdapterId → Bool)
    (h : w.RolesDisjoint) (p : AdapterId) : (bindSession ok opens w p).2.RolesDisjoint := by
  refine h.of_map (fun g _ hroles => ?_) (bindSession_grp ok opens w p)
  split
  · exact hroles.of_eq rfl rfl
  · exact hroles

theorem unbind_roles (g : Group) : g.unbind.primary = g.primary ∧ g.unbind.helpers = g.helpers := by
  unfold Group.unbind
  split <;> exact ⟨rfl, rfl⟩

theorem unbindSession_rolesDisjoint (h : w.RolesDisjoint) : (unbindSession w).RolesDisjoint := by
  refine h.of_map (fun g _ hroles => ?_) (unbindSession_grp w)
  obtain ⟨hprimary, hhelpers⟩ := unbind_roles (cryptoDeinit w g).2
  exact hroles.of_eq hprimary hhelpers

theorem notifyChannelSwitch_rolesDisjoint (h : w.RolesDisjoint) (a : AdapterId) :
    (notifyChannelSwitch w a).RolesDisjoint := by
  refine h.of_map (fun g _ hroles => ?_) (notifyChannelSwitch_grp w a)
  split
  · exact hroles.of_eq rfl rfl
  · exact hroles

theorem next_rolesDisjoint {e : Event} (h : w.RolesDisjoint)
    (he : givesBothRoles w e = false) (hnext : w.next e = some w') : w'.RolesDisjoint := by
  by_cases htraffic : e.isTraffic
  · intro g' hg'
    cases hg : w.grp with
    | none => simp [next_grp_none hg hnext] at hg'
    | some g =>
      obtain ⟨g'', hg'', hcontrol⟩ := next_sameControl htraffic hg hnext
      obtain rfl := Option.some.inj (hg''.symm.trans hg')
      exact (h g hg).of_eq hcontrol.primary hcontrol.helpers
  cases e with
  | setPrimary a =>
    obtain rfl := Option.some.inj hnext
    exact setPrimary_rolesDisjoint h a
  | addHelper a =>
    obtain rfl := Option.some.inj hnext
    exact addHelper_rolesDisjoint h he
  | removeHelper a =>
    obtain rfl := Option.some.inj hnext
    exact removeHelper_rolesDisjoint h a
  | removeAdapter a =>
    obtain rfl := Option.some.inj hnext
    exact dropPrimary_rolesDisjoint (removeHelper_rolesDisjoint h a) a
  | pair a name =>
    obtain rfl := Option.some.inj hnext
    have hset := setPrimary_rolesDisjoint h a
    unfold storePair
    split
    · exact h
    · next name _ =>
      split
      · next heq =>
        rw [heq] at hset
        exact hset
      · next w₁ heq =>
        rw [heq] at hset
        split
        · next helper _ =>
          refine addHelper_rolesDisjoint hset ?_
          simpa [givesBothRoles, heq] using he
        · exact hset
        · exact hset
  | unpair name =>
    obtain rfl := Option.some.inj hnext
    unfold storeUnpair
    split
    · exact h
    · exact h
    · exact removeHelper_rolesDisjoint h _
    · exact h
    · exact h
  | autoPair a val devs =>
    obtain rfl := Option.some.inj hnext
    have hset := setPrimary_rolesDisjoint h a
    unfold storeAutoPair
    split
    · exact h
    · split
      · next heq =>
        rw [heq] at hset
        exact hset
      · next w₁ heq =>
        have hprimary := @setPrimary_primary w a (by rw [heq])
        rw [heq] at hset hprimary
        exact autoDiscoverHelpers_rolesDisjoint devs hset hprimary
  | bindSession ok opens p =>
    obtain rfl := Option.some.inj hnext
    exact bindSession_rolesDisjoint ok opens h p
  | unbindSession =>
    obtain rfl := Option.some.inj hnext
    exact unbindSession_rolesDisjoint h
  | deinit =>
    obtain rfl := Option.some.inj hnext
    intro g' hg'
    unfold deinit at hg'
    split at hg'
    · exact h g' hg'
    · simp at hg'
  | switchChannel a cur =>
    obtain rfl := Option.some.inj hnext
    exact notifyChannelSwitch_rolesDisjoint (w := w.setRadio a _) h a
  | resetStats | setIfUp | submit | drain | kernelDecrypt | decache | adapterStep =>
    simp [Event.isTraffic] at htraffic

theorem preRecvEntry_of_not_isHelper {a : AdapterId} (h : isHelper w a = false) (f : RecvFrame) :
    preRecvEntry w a f = (.fail, w) := by
  simp [preRecvEntry, h]

/-- **No adapter is the primary and a helper at once**, and the primary's own frames stay with it,
in every run in which no adapter joins the group that it is the primary of. -/
theorem roles_disjoint (hw : Started w) {es : List Event}
    (hok : Meets World.next (fun w e => givesBothRoles w e = false) w es)
    (hrun : run World.next w es = some w') :
    ∀ g p, w'.grp = some g → g.primary = some p →
      p ∉ g.helpers ∧ isHelper w' p = false ∧ ∀ f, preRecvEntry w' p f = (.fail, w') := by
  have hstart : w.RolesDisjoint := by
    intro g hg
    rw [hw.grp] at hg
    obtain rfl := Option.some.inj hg
    exact ⟨nofun, fun _ => rfl⟩
  have hinv : w'.RolesDisjoint :=
    run_invariant_of_meets (fun _ _ _ => next_rolesDisjoint) hstart hok hrun
  intro g p hg hp
  have hnot := (hinv g hg).notMem p hp
  have hhelper : isHelper w' p = false := by
    unfold isHelper
    rw [hg]
    dsimp only
    split
    · rfl
    · exact Bool.eq_false_iff.mpr fun h => hnot (List.mem_of_mem_take (List.elem_iff.mp h))
  exact ⟨hnot, hhelper, preRecvEntry_of_not_isHelper hhelper⟩

/-- A driver that has just come up, with adapters of no kind. -/
def idleWorld : World where
  adapter _ := {}
  radio _ := {}

theorem idleWorld_started : Started idleWorld := ⟨rfl, rfl, rfl⟩

/-- Two adapters that are paired have one role each. -/
theorem roles_disjoint_pair :
    ∃ w', run World.next idleWorld [.pair 0 (.dev (.rtw (some 1)))] = some w' ∧
      isHelper w' 0 = false ∧ isHelper w' 1 = true :=
  ⟨_, rfl, (@roles_disjoint idleWorld _ idleWorld_started [.pair 0 (.dev (.rtw (some 1)))]
    (by decide) rfl _ 0 rfl rfl).2.1, by decide⟩

/-- An adapter that is paired with itself has both roles. -/
theorem not_roles_disjoint :
    ¬∀ (w : World) (es : List Event) (w' : World), Started w → run World.next w es = some w' →
      ∀ g p, w'.grp = some g → g.primary = some p →
        p ∉ g.helpers ∧ isHelper w' p = false ∧ ∀ f, preRecvEntry w' p f = (.fail, w') := by
  intro h
  have hself := (h idleWorld [.pair 0 (.dev (.rtw (some 0)))] _ idleWorld_started rfl _ 0 rfl rfl).1
  exact hself (by decide)

/-! ## The session state -/

/-- BSSID and channel of an adapter, as `rtw_coop_rx_bind_session` takes them. -/
def bssOf (a : Adapter) (r : Radio) : MacAddr × ℕ :=
  (if a.fwState.ap then a.macAddr else a.curBssid, r.cur.channel)

structure StateMeans (g : Group) (lastBind : Option (MacAddr × ℕ)) : Prop where
  active : g.state = .active → g.primary ≠ none ∧ 0 < g.helpers.length ∧
    lastBind = some (g.boundBssid, g.boundChannel)
  binding : g.state = .binding → g.primary ≠ none ∧ 0 < g.helpers.length
  unbound : g.state = .idle ∨ g.state = .disabled → g.boundBssid = .zero ∧ g.boundChannel = 0

/-- The driver with the BSS of the last successful bind. -/
structure Watched where
  world : World
  lastBind : Option (MacAddr × ℕ) := none

def bindsTo (w : World) : Event → Option (MacAddr × ℕ)
  | .bindSession _ _ p =>
    match w.grp with
    | none => none
    | some g =>
      if g.primary = some p ∧ bindable (w.adapter p) then some (bssOf (w.adapter p) (w.radio p))
      else none
  | _ => none

def Watched.next (s : Watched) (e : Event) : Option Watched :=
  (s.world.next e).map fun w => ⟨w, (bindsTo s.world e).or s.lastBind⟩

def Event.isSessionOp : Event → Bool
  | .setPrimary _ | .addHelper _ | .removeHelper _ | .removeAdapter _ | .bindSession _ _ _
  | .unbindSession => true
  | _ => false

def Group.isUnbound (g : Group) : Bool := g.boundBssid = .zero && g.boundChannel = 0

def losesLastHelper (g : Group) (a : AdapterId) : Bool :=
  g.helpers.elem a && (g.helpers.erase a).isEmpty &&
    (g.state = .binding || (g.state = .active && !g.isUnbound))

def leavesStateWrong (w : World) (e : Event) : Bool :=
  match w.grp with
  | none => false
  | some g =>
    match e with
    | .removeHelper a => losesLastHelper g a
    | .removeAdapter a => if g.primary = some a then !g.isUnbound else losesLastHelper g a
    | .bindSession _ _ p =>
      g.primary = some p && bindable (w.adapter p) && g.helpers.isEmpty &&
        bssOf (w.adapter p) (w.radio p) ≠ (.zero, 0)
    | _ => false

def keepsState (s : Watched) (e : Event) : Bool :=
  (e.isSessionOp || e.isTraffic) && !leavesStateWrong s.world e

namespace StateMeans

variable {last : Option (MacAddr × ℕ)}

theorem of_control (h : StateMeans g last) (hsame : g.SameControl g') : StateMeans g' last where
  active := by
    rw [hsame.state, hsame.primary, hsame.helpers, hsame.boundBssid, hsame.boundChannel]
    exact h.active
  binding := by
    rw [hsame.state, hsame.primary, hsame.helpers]
    exact h.binding
  unbound := by
    rw [hsame.state, hsame.boundBssid, hsame.boundChannel]
    exact h.unbound

theorem setPrimary (h : StateMeans g last) (a : AdapterId) : StateMeans (g.setPrimary a) last := by
  unfold Group.setPrimary
  split
  · exact h
  · by_cases hdisabled : g.state = .disabled
    · have hclear := h.unbound (Or.inr hdisabled)
      exact ⟨by simp [hdisabled], by simp [hdisabled], fun _ => hclear⟩
    · simp only [if_neg hdisabled]
      exact ⟨fun hs => ⟨nofun, (h.active hs).2⟩, fun hs => ⟨nofun, (h.binding hs).2⟩, h.unbound⟩

theorem join (h : StateMeans g last) {a : AdapterId} (hadmits : g.admits a) :
    StateMeans (g.join a) last := by
  have hprimary : g.primary ≠ none := by
    simp only [Group.admits, Bool.and_eq_true] at hadmits
    exact Option.isSome_iff_ne_none.mp hadmits.1.1
  have hlength : 0 < (g.join a).helpers.length := by simp [Group.join, Group.count]
  by_cases hidle : g.state = .idle
  · have hstate : (g.join a).state = .binding := by simp [Group.join, Group.count, hidle]
    refine ⟨fun hs => ?_, fun _ => ⟨hprimary, hlength⟩, fun hs => ?_⟩
    · simp [hstate] at hs
    · simp [hstate] at hs
  · have hstate : (g.join a).state = g.state := by simp [Group.join, Group.count, hidle]
    refine ⟨fun hs => ⟨hprimary, hlength, (h.active (hstate ▸ hs)).2.2⟩,
      fun _ => ⟨hprimary, hlength⟩, fun hs => h.unbound (hstate ▸ hs)⟩

theorem dropHelper (h : StateMeans g last) {a : AdapterId} (ha : a ∈ g.helpers)
    (hlast : losesLastHelper g a = false) : StateMeans (g.dropHelper a) last := by
  by_cases hnil : g.helpers.erase a = []
  · simp only [losesLastHelper, List.elem_iff.mpr ha, hnil, List.isEmpty_nil, Bool.true_and,
      Bool.or_eq_false_iff, decide_eq_false_iff_not, Bool.and_eq_false_iff,
      Bool.not_eq_false'] at hlast
    obtain ⟨hbinding, hactive⟩ := hlast
    unfold Group.dropHelper
    dsimp only [Group.count]
    by_cases hs : g.state = .active
    · rw [if_pos ⟨hnil, hs⟩]
      have hclear : g.isUnbound := hactive.resolve_left (not_not.mpr hs)
      simp only [Group.isUnbound, Bool.and_eq_true, decide_eq_true_eq] at hclear
      exact ⟨nofun, nofun, fun _ => hclear⟩
    · rw [if_neg fun hc => hs hc.2]
      exact ⟨fun hc => absurd hc hs, fun hc => absurd hc hbinding, h.unbound⟩
  · unfold Group.dropHelper
    dsimp only [Group.count]
    rw [if_neg fun hc => hnil hc.1]
    have hlength : 0 < (g.helpers.erase a).length := List.length_pos_of_ne_nil hnil
    exact ⟨fun hc => ⟨(h.active hc).1, hlength, (h.active hc).2.2⟩,
      fun hc => ⟨(h.binding hc).1, hlength⟩, h.unbound⟩

theorem clear (g : Group) (hclear : g.isUnbound) : StateMeans g.clear last := by
  simp only [Group.isUnbound, Bool.and_eq_true, decide_eq_true_eq] at hclear
  exact ⟨nofun, nofun, fun _ => hclear⟩

/-- The group is bound to the BSS that it names, and one without helpers to none. -/
theorem bind (h : StateMeans g last) {a : Adapter} {r : Radio} {p : AdapterId}
    (hp : g.primary = some p) (hnone : g.helpers = [] → bssOf a r = (.zero, 0)) :
    StateMeans (g.bind a r) (some (bssOf a r)) := by
  by_cases hnil : g.helpers = []
  · have hstate : (g.bind a r).state = g.state := by simp [Group.bind, hnil]
    have hbss : (g.bind a r).boundBssid = .zero ∧ (g.bind a r).boundChannel = 0 :=
      Prod.mk.inj (hnone hnil)
    refine ⟨fun hs => ?_, fun hs => ?_, fun _ => hbss⟩
    · have hlength := (h.active (hstate ▸ hs)).2.1
      simp [hnil] at hlength
    · have hlength := (h.binding (hstate ▸ hs)).2
      simp [hnil] at hlength
  · have hstate : (g.bind a r).state = .active := by simp [Group.bind, hnil]
    have hlength : 0 < (g.bind a r).helpers.length := List.length_pos_of_ne_nil hnil
    refine ⟨fun _ => ⟨by simp [Group.bind, hp], hlength, rfl⟩, fun hs => ?_, fun hs => ?_⟩
    · simp [hstate] at hs
    · simp [hstate] at hs

theorem unbind (h : StateMeans g last) : StateMeans g.unbind last := by
  unfold Group.unbind
  split
  · refine ⟨fun hs => ?_, fun hs => ?_, fun _ => ⟨rfl, rfl⟩⟩
    · dsimp only at hs
      split at hs <;> simp at hs
    · dsimp only at hs
      split at hs <;> simp at hs
  · exact h

end StateMeans

def Watched.StateMeans (s : Watched) : Prop := ∀ g ∈ s.world.grp, Coop.StateMeans g s.lastBind

theorem Watched.StateMeans.of_map {F : Group → Group} {s s' : Watched} (h : s.StateMeans)
    (hF : ∀ g ∈ s.world.grp, Coop.StateMeans g s.lastBind → Coop.StateMeans (F g) s'.lastBind)
    (hgrp : s'.world.grp = s.world.grp.map F) : s'.StateMeans := by
  intro g' hg'
  rw [hgrp] at hg'
  obtain ⟨g, hg, rfl⟩ := Option.map_eq_some_iff.mp hg'
  exact hF g hg (h g hg)

theorem next_stateMeans {s s' : Watched} {e : Event} (h : s.StateMeans) (he : keepsState s e)
    (hnext : s.next e = some s') : s'.StateMeans := by
  obtain ⟨w', hw', rfl⟩ := Option.map_eq_some_iff.mp hnext
  simp only [keepsState, Bool.and_eq_true, Bool.or_eq_true, Bool.not_eq_true'] at he
  obtain ⟨hop, hright⟩ := he
  by_cases htraffic : e.isTraffic
  · intro g' hg'
    cases hg : s.world.grp with
    | none => simp [next_grp_none hg hw'] at hg'
    | some g =>
      obtain ⟨g'', hg'', hcontrol⟩ := next_sameControl htraffic hg hw'
      obtain rfl := Option.some.inj (hg''.symm.trans hg')
      have hlast : (bindsTo s.world e).or s.lastBind = s.lastBind := by
        cases e <;> simp_all [bindsTo, Event.isTraffic]
      change StateMeans g'' ((bindsTo s.world e).or s.lastBind)
      rw [hlast]
      exact (h g hg).of_control hcontrol
  cases e with
  | setPrimary a =>
    obtain rfl := Option.some.inj hw'
    exact h.of_map (fun _ _ hg => hg.setPrimary a) (setPrimary_grp s.world a)
  | addHelper a =>
    obtain rfl := Option.some.inj hw'
    refine h.of_map (fun g _ hg => ?_) (addHelper_grp s.world a)
    split
    · next hadmits => exact hg.join hadmits
    · exact hg
  | removeHelper a =>
    obtain rfl := Option.some.inj hw'
    refine h.of_map (fun g hgrp hg => ?_) (removeHelper_grp s.world a)
    have hlast : losesLastHelper g a = false := by
      have hgrp : s.world.grp = some g := hgrp
      simpa [leavesStateWrong, hgrp] using hright
    split
    · next hmem => exact hg.dropHelper hmem hlast
    · exact hg
  | removeAdapter a =>
    obtain rfl := Option.some.inj hw'
    have hgrp := (dropPrimary_grp (removeHelper s.world a).2 a).trans
      (congrArg _ (removeHelper_grp s.world a))
    rw [Option.map_map] at hgrp
    refine h.of_map (fun g hgrp hg => ?_) hgrp
    have hgrp : s.world.grp = some g := hgrp
    simp only [leavesStateWrong, hgrp] at hright
    have hprimary : (if a ∈ g.helpers then g.dropHelper a else g).primary = g.primary := by
      split
      · exact dropHelper_primary g a
      · rfl
    have hbound : (if a ∈ g.helpers then g.dropHelper a else g).isUnbound = g.isUnbound := by
      unfold Group.dropHelper
      dsimp only [Group.count]
      split_ifs <;> rfl
    dsimp only [Function.comp_apply]
    rw [hprimary]
    by_cases hp : g.primary = some a
    · rw [if_pos hp] at hright ⊢
      exact StateMeans.clear _ (hbound.trans (by simpa using hright))
    · rw [if_neg hp] at hright ⊢
      split
      · next hmem => exact hg.dropHelper hmem hright
      · exact hg
  | bindSession ok opens p =>
    obtain rfl := Option.some.inj hw'
    refine h.of_map (fun g hgrp hg => ?_) (bindSession_grp ok opens s.world p)
    have hgrp : s.world.grp = some g := hgrp
    simp only [leavesStateWrong, hgrp] at hright
    split
    · next hbind =>
      have hlast : (bindsTo s.world (.bindSession ok opens p)).or s.lastBind =
          some (bssOf (s.world.adapter p) (s.world.radio p)) := by
        simp [bindsTo, hgrp, hbind]
      have hbound : StateMeans (g.bind (s.world.adapter p) (s.world.radio p))
          (some (bssOf (s.world.adapter p) (s.world.radio p))) :=
        hg.bind hbind.1 fun hnil => by simpa [hbind, hnil] using hright
      dsimp only
      rw [hlast]
      exact hbound.of_control ⟨rfl, rfl, rfl, rfl, rfl, rfl⟩
    · next hbind =>
      have hlast : (bindsTo s.world (.bindSession ok opens p)).or s.lastBind = s.lastBind := by
        simp [bindsTo, hgrp, hbind]
      dsimp only
      rw [hlast]
      exact hg
  | unbindSession =>
    obtain rfl := Option.some.inj hw'
    refine h.of_map (fun g _ hg => ?_) (unbindSession_grp s.world)
    have hcontrol : g.SameControl (cryptoDeinit s.world g).2 := ⟨rfl, rfl, rfl, rfl, rfl, rfl⟩
    exact (hg.of_control hcontrol).unbind.of_control ⟨rfl, rfl, rfl, rfl, rfl, rfl⟩
  | pair | unpair | autoPair | deinit | switchChannel | resetStats | setIfUp | submit | drain
  | kernelDecrypt | decache | adapterStep => simp_all [Event.isTraffic, Event.isSessionOp]

/-- **The session state means what it says** in every run of session operations in which no last
helper and no bound primary leaves and no BSS is bound without a helper. -/
theorem state_means (hw : Started w) {es : List Event} {s : Watched}
    (hok : Meets Watched.next (fun s e => keepsState s e) ⟨w, none⟩ es)
    (hrun : run Watched.next ⟨w, none⟩ es = some s) :
    ∀ g, s.world.grp = some g → StateMeans g s.lastBind := by
  have hstart : Watched.StateMeans ⟨w, none⟩ := by
    intro g hg
    have hgrp : w.grp = some g := hg
    rw [hw.grp] at hgrp
    obtain rfl := Option.some.inj hgrp
    exact ⟨nofun, nofun, fun _ => ⟨rfl, rfl⟩⟩
  exact run_invariant_of_meets (fun _ _ _ => next_stateMeans) hstart hok hrun

def associated : Adapter := { fwState := { station := true, asoc := true } }

def bindRun : List Event :=
  [.setPrimary 0, .addHelper 1, .adapterStep 0 associated,
    .bindSession (fun _ => true) (fun _ => true) 0]

/-- The bound session is active, with its primary and its helper. -/
theorem state_means_bound :
    ∃ s g, run Watched.next ⟨idleWorld, none⟩ bindRun = some s ∧ s.world.grp = some g ∧
      g.state = .active ∧ g.primary ≠ none ∧ 0 < g.helpers.length ∧
        s.lastBind = some (g.boundBssid, g.boundChannel) :=
  ⟨_, _, rfl, rfl, rfl, (@state_means idleWorld idleWorld_started bindRun _ (by decide +kernel) rfl
    _ rfl).active rfl⟩

/-- A pairing that is undone before the bind leaves the group binding without helpers. -/
theorem not_state_means :
    ¬∀ (w : World) (es : List Event) (s : Watched), Started w → (∀ e ∈ es, e.isSessionOp) →
      run Watched.next ⟨w, none⟩ es = some s →
        ∀ g, s.world.grp = some g → StateMeans g s.lastBind := by
  intro h
  have hbinding := (h idleWorld [.setPrimary 0, .addHelper 1, .removeHelper 1] _ idleWorld_started
    (by decide) rfl _ rfl).binding rfl
  exact absurd hbinding.2 (by decide)

end Rtl88x2eu.Coop
