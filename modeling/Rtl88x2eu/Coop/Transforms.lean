import Rtl88x2eu.Coop.GroupState

/-!
# The transforms of the group

The kernel's AEAD transforms belong to the three fields of the group: what is allocated and not
freed is what a field points to. `rtw_coop_rx_bind_session` allocates without a look at the fields,
so a session that is bound twice loses the transforms of the first time.

## Main definitions

* `Held`, `losesTransform`

## Main results

* `transforms_held`: the transforms are balanced over runs
-/

namespace Rtl88x2eu.Coop

open Transition

variable {w w' : World} {g g' : Group}

/-! ## Fields and pool -/

abbrev Fields := (Tfm → Option TfmId) × AeadPool

/-- No two fields point to one transform, and all are older than the next allocation. -/
structure Distinct (s : Fields) : Prop where
  unique : ∀ t t' i, s.1 t = some i → s.1 t' = some i → t = t'
  lt_next : ∀ t i, s.1 t = some i → i < s.2.next

/-- The live transforms are those that a field points to, and none was freed twice. -/
structure Held (s : Fields) : Prop extends Distinct s where
  nodup : s.2.live.Nodup
  mem_live : ∀ i, i ∈ s.2.live ↔ ∃ t, s.1 t = some i
  doubleFree : s.2.doubleFree = false

section Init

variable {s : Fields} (ok : Tfm → Bool) (t : Tfm)

theorem cryptoInitTfm_field (t' : Tfm) (i : TfmId) :
    (cryptoInitTfm ok s t).1 t' = some i ↔
      t' = t ∧ ok t ∧ i = s.2.next ∨ t' ≠ t ∧ s.1 t' = some i := by
  unfold cryptoInitTfm AeadPool.alloc
  by_cases heq : t' = t
  · subst heq
    by_cases hok : ok t'
    · simp [hok, eq_comm]
    · simp [hok]
  · simp [heq]

theorem cryptoInitTfm_next : s.2.next ≤ (cryptoInitTfm ok s t).2.next ∧
    (ok t → (cryptoInitTfm ok s t).2.next = s.2.next + 1) := by
  unfold cryptoInitTfm AeadPool.alloc
  split
  · exact ⟨Nat.le_succ _, fun _ => rfl⟩
  · next hok => exact ⟨le_rfl, fun h => absurd h hok⟩

theorem Distinct.init (h : Distinct s) : Distinct (cryptoInitTfm ok s t) := by
  refine ⟨fun t₁ t₂ i h₁ h₂ => ?_, fun t₁ i h₁ => ?_⟩
  · obtain ⟨rfl, -, rfl⟩ | ⟨-, h₁⟩ := (cryptoInitTfm_field ok t t₁ i).mp h₁
    · obtain ⟨rfl, -, -⟩ | ⟨-, h₂⟩ := (cryptoInitTfm_field ok t₁ t₂ _).mp h₂
      · rfl
      · exact absurd (h.lt_next t₂ _ h₂) (lt_irrefl _)
    · obtain ⟨-, -, rfl⟩ | ⟨-, h₂⟩ := (cryptoInitTfm_field ok t t₂ i).mp h₂
      · exact absurd (h.lt_next t₁ _ h₁) (lt_irrefl _)
      · exact h.unique t₁ t₂ i h₁ h₂
  · obtain ⟨-, hok, rfl⟩ | ⟨-, h₁⟩ := (cryptoInitTfm_field ok t t₁ i).mp h₁
    · rw [(cryptoInitTfm_next ok t).2 hok]
      exact Nat.lt_succ_self _
    · exact (h.lt_next t₁ i h₁).trans_le (cryptoInitTfm_next ok t).1

/-- An allocation for a field that is `NULL`. -/
theorem Held.init (h : Held s) (ht : s.1 t = none) : Held (cryptoInitTfm ok s t) := by
  refine ⟨h.toDistinct.init ok t, ?_, fun i => ?_, ?_⟩
  · unfold cryptoInitTfm AeadPool.alloc
    split
    · refine List.nodup_cons.mpr ⟨fun hmem => ?_, h.nodup⟩
      obtain ⟨t', ht'⟩ := (h.mem_live _).mp hmem
      exact lt_irrefl _ (h.lt_next t' _ ht')
    · exact h.nodup
  · have hlive : i ∈ (cryptoInitTfm ok s t).2.live ↔ ok t ∧ i = s.2.next ∨ i ∈ s.2.live := by
      unfold cryptoInitTfm AeadPool.alloc
      split
      · next hok => simp [hok]
      · next hok => simp [hok]
    simp only [hlive, cryptoInitTfm_field, h.mem_live, exists_or, exists_eq_left]
    refine or_congr_right ⟨fun ⟨t', ht'⟩ => ⟨t', ?_, ht'⟩, fun ⟨t', _, ht'⟩ => ⟨t', ht'⟩⟩
    rintro rfl
    simp [ht] at ht'
  · unfold cryptoInitTfm AeadPool.alloc
    split <;> exact h.doubleFree

end Init

section Deinit

variable {s : Fields} (t : Tfm)

theorem cryptoDeinitTfm_field (t' : Tfm) (i : TfmId) :
    (cryptoDeinitTfm s t).1 t' = some i ↔ t' ≠ t ∧ s.1 t' = some i := by
  unfold cryptoDeinitTfm
  split
  · next hnone =>
    refine ⟨fun h => ⟨?_, h⟩, And.right⟩
    rintro rfl
    simp [hnone] at h
  · by_cases heq : t' = t
    · simp [heq]
    · simp [heq]

theorem cryptoDeinitTfm_next : (cryptoDeinitTfm s t).2.next = s.2.next := by
  unfold cryptoDeinitTfm
  split <;> rfl

theorem Distinct.deinit (h : Distinct s) : Distinct (cryptoDeinitTfm s t) := by
  refine ⟨fun t₁ t₂ i h₁ h₂ => ?_, fun t₁ i h₁ => ?_⟩
  · exact h.unique t₁ t₂ i ((cryptoDeinitTfm_field t t₁ i).mp h₁).2
      ((cryptoDeinitTfm_field t t₂ i).mp h₂).2
  · rw [cryptoDeinitTfm_next]
    exact h.lt_next t₁ i ((cryptoDeinitTfm_field t t₁ i).mp h₁).2

/-- A field's transform is freed and the field cleared. -/
theorem Held.deinit (h : Held s) : Held (cryptoDeinitTfm s t) := by
  refine ⟨h.toDistinct.deinit t, ?_, fun i => ?_, ?_⟩
  · unfold cryptoDeinitTfm
    split
    · exact h.nodup
    · exact h.nodup.erase _
  · simp only [cryptoDeinitTfm_field]
    unfold cryptoDeinitTfm
    split
    · next hnone =>
      rw [h.mem_live]
      refine ⟨fun ⟨t', ht'⟩ => ⟨t', ?_, ht'⟩, fun ⟨t', _, ht'⟩ => ⟨t', ht'⟩⟩
      rintro rfl
      simp [hnone] at ht'
    · next j hj =>
      rw [AeadPool.free, h.nodup.mem_erase_iff, h.mem_live]
      constructor
      · rintro ⟨hne, t', ht'⟩
        refine ⟨t', ?_, ht'⟩
        rintro rfl
        exact hne (Option.some.inj (ht'.symm.trans hj))
      · rintro ⟨t', hne, ht'⟩
        refine ⟨?_, t', ht'⟩
        rintro rfl
        exact hne (h.unique t' t i ht' hj)
  · unfold cryptoDeinitTfm
    split
    · exact h.doubleFree
    · next j hj => simp [AeadPool.free, h.doubleFree, (h.mem_live j).mpr ⟨t, hj⟩]

end Deinit

variable {s : Fields}

theorem Held.cryptoInit (h : Held s) (ok : Tfm → Bool) (hs : ∀ t, s.1 t = none) :
    Held (tfms.foldl (cryptoInitTfm ok) s) := by
  have hnone : ∀ {s : Fields} {t t'}, t' ≠ t → s.1 t' = none →
      (cryptoInitTfm ok s t).1 t' = none := by
    intro s t t' hne hnone
    rw [Option.eq_none_iff_forall_ne_some]
    intro i hi
    obtain ⟨heq, -⟩ | ⟨-, hi⟩ := (cryptoInitTfm_field ok t t' i).mp hi
    · exact hne heq
    · simp [hnone] at hi
  have hccm := h.init ok .ccm (hs .ccm)
  have hccm256 := hccm.init ok .ccm256 (hnone (by decide) (hs .ccm256))
  exact hccm256.init ok .gcm (hnone (by decide) (hnone (by decide) (hs .gcm)))

theorem Held.cryptoDeinit (h : Held s) : Held (tfms.foldl cryptoDeinitTfm s) :=
  ((h.deinit .ccm).deinit .ccm256).deinit .gcm

theorem foldl_cryptoDeinitTfm_eq_none (s : Fields) (t : Tfm) :
    (tfms.foldl cryptoDeinitTfm s).1 t = none := by
  rw [Option.eq_none_iff_forall_ne_some]
  intro i hi
  simp only [tfms, List.foldl_cons, List.foldl_nil, cryptoDeinitTfm_field] at hi
  cases t <;> simp at hi

/-! ## The driver's transforms -/

/-- The fields of the group, all `NULL` when there is none, and the kernel's transforms. -/
def World.fields (w : World) : Fields := (fun t => w.grp.bind (·.tfm t), w.kernel)

structure SameTransforms (s s' : Fields) : Prop where
  field : s'.1 = s.1
  live : s'.2.live = s.2.live
  next : s'.2.next = s.2.next
  doubleFree : s'.2.doubleFree = s.2.doubleFree

theorem SameTransforms.of_eq {s s' : Fields} (h : s' = s) : SameTransforms s s' := by
  subst h
  exact ⟨rfl, rfl, rfl, rfl⟩

theorem SameTransforms.distinct {s s' : Fields} (h : SameTransforms s s') (hs : Distinct s) :
    Distinct s' := by
  refine ⟨?_, ?_⟩
  · rw [h.field]
    exact hs.unique
  · rw [h.field, h.next]
    exact hs.lt_next

theorem SameTransforms.held {s s' : Fields} (h : SameTransforms s s') (hs : Held s) : Held s' where
  toDistinct := h.distinct hs.toDistinct
  nodup := by
    rw [h.live]
    exact hs.nodup
  mem_live := by
    rw [h.live, h.field]
    exact hs.mem_live
  doubleFree := h.doubleFree.trans hs.doubleFree

theorem fields_of_map {F : Group → Group} (hgrp : w'.grp = w.grp.map F)
    (hF : ∀ g, (F g).tfm = g.tfm) (hkernel : w'.kernel = w.kernel) : w'.fields = w.fields := by
  unfold World.fields
  rw [hkernel, hgrp]
  cases w.grp with
  | none => rfl
  | some g => simp [hF]

theorem setPrimary_fields (w : World) (a : AdapterId) : (setPrimary w a).2.fields = w.fields := by
  refine fields_of_map (setPrimary_grp w a) (fun g => ?_) ?_
  · unfold Group.setPrimary
    split <;> rfl
  · unfold setPrimary
    split
    · rfl
    · split <;> rfl

theorem addHelper_fields (w : World) (a : AdapterId) : (addHelper w a).2.fields = w.fields := by
  refine fields_of_map (addHelper_grp w a) (fun g => ?_) ?_
  · split <;> rfl
  · unfold addHelper
    split
    · rfl
    · split_ifs <;> rfl

theorem removeHelper_fields (w : World) (a : AdapterId) :
    (removeHelper w a).2.fields = w.fields := by
  refine fields_of_map (removeHelper_grp w a) (fun g => ?_) ?_
  · unfold Group.dropHelper
    dsimp only [Group.count]
    split_ifs <;> rfl
  · unfold removeHelper
    split
    · rfl
    · split_ifs <;> rfl

theorem dropPrimary_fields (w : World) (a : AdapterId) : (dropPrimary w a).fields = w.fields := by
  refine fields_of_map (dropPrimary_grp w a) (fun g => ?_) ?_
  · split <;> rfl
  · unfold dropPrimary
    split
    · rfl
    · split_ifs
      · simp
      · rfl

theorem notifyChannelSwitch_fields (w : World) (a : AdapterId) :
    (notifyChannelSwitch w a).fields = w.fields := by
  refine fields_of_map (notifyChannelSwitch_grp w a) (fun g => ?_) ?_
  · split <;> rfl
  · unfold notifyChannelSwitch
    split
    · rfl
    · split
      · rfl
      · dsimp only
        split
        · rfl
        · rw [(foldl_retuneHelper_grp _ _ _).2, setGrp_kernel]

theorem submitHelperFrame_fields (w : World) (h : AdapterId) (f : RecvFrame) :
    (submitHelperFrame w h f).2.fields = w.fields := by
  unfold submitHelperFrame
  split
  · rfl
  · next g hg =>
    split
    · rfl
    · split
      · rfl
      · dsimp only
        split
        · split <;> simp [World.fields, hg, Group.count]
        · split
          · simp [World.fields, hg, Group.count]
          · unfold submitEnqueue
            split_ifs <;> simp [World.fields, hg, Group.count]

theorem foldl_storeTfm (g : Group) (c : GroupCrypto) (ts : List Tfm) (p : AeadPool) :
    (ts.foldl (storeTfm g c) p).live = p.live ∧ (ts.foldl (storeTfm g c) p).next = p.next ∧
      (ts.foldl (storeTfm g c) p).doubleFree = p.doubleFree := by
  induction ts generalizing p with
  | nil => exact ⟨rfl, rfl, rfl⟩
  | cons t ts ih =>
    obtain ⟨hlive, hnext, hfree⟩ := ih (storeTfm g c p t)
    rw [List.foldl_cons, hlive, hnext, hfree]
    unfold storeTfm
    split <;> exact ⟨rfl, rfl, rfl⟩

theorem storeCrypto_sameTransforms {g₀ : Group} (hgrp : w.grp = some g₀) (htfm : g.tfm = g₀.tfm)
    (c : GroupCrypto) : SameTransforms w.fields (w.storeCrypto g c).fields := by
  obtain ⟨hlive, hnext, hfree⟩ := foldl_storeTfm g c tfms w.kernel
  refine ⟨?_, hlive, hnext, hfree⟩
  simp [World.fields, World.storeCrypto, hgrp, htfm]

def Event.isCrypto : Event → Bool
  | .bindSession _ _ _ | .unbindSession | .deinit => true
  | _ => false

theorem next_sameTransforms {e : Event} (he : e.isCrypto = false) (h : w.next e = some w') :
    SameTransforms w.fields w'.fields := by
  cases e with
  | kernelDecrypt k a f =>
    obtain rfl := Option.some.inj h
    unfold kernelDecrypt
    split
    · exact .of_eq rfl
    · next g hg => exact storeCrypto_sameTransforms hg rfl _
  | drain env k =>
    obtain ⟨g, p, f, q, hg, -, -, rfl⟩ := drainIteration_cases h
    exact @storeCrypto_sameTransforms (w.setAdapter p _) _ g hg rfl _
  | bindSession | unbindSession | deinit => simp [Event.isCrypto] at he
  | setPrimary a =>
    obtain rfl := Option.some.inj h
    exact .of_eq (setPrimary_fields w a)
  | addHelper a =>
    obtain rfl := Option.some.inj h
    exact .of_eq (addHelper_fields w a)
  | removeHelper a =>
    obtain rfl := Option.some.inj h
    exact .of_eq (removeHelper_fields w a)
  | removeAdapter a =>
    obtain rfl := Option.some.inj h
    exact .of_eq ((dropPrimary_fields _ a).trans (removeHelper_fields w a))
  | pair a name =>
    obtain rfl := Option.some.inj h
    exact .of_eq (storePair_induction (fun w' a h => (setPrimary_fields w' a).trans h)
      (fun w' a h => (addHelper_fields w' a).trans h) rfl a name)
  | unpair name =>
    obtain rfl := Option.some.inj h
    obtain heq | ⟨a, heq⟩ := storeUnpair_cases w name
    · exact .of_eq (by rw [heq])
    · exact .of_eq (by rw [heq, removeHelper_fields])
  | autoPair a val devs =>
    obtain rfl := Option.some.inj h
    exact .of_eq (storeAutoPair_induction (fun w' a h => (setPrimary_fields w' a).trans h)
      (fun w' a h => (addHelper_fields w' a).trans h) rfl a val devs)
  | resetStats =>
    obtain rfl := Option.some.inj h
    refine .of_eq ?_
    unfold storeResetStats
    split
    · rfl
    · next hg => simp [World.fields, hg]
  | switchChannel a cur =>
    obtain rfl := Option.some.inj h
    exact .of_eq (notifyChannelSwitch_fields _ a)
  | submit a f =>
    obtain rfl := Option.some.inj h
    exact .of_eq (submitHelperFrame_fields w a f)
  | setIfUp | decache | adapterStep =>
    obtain rfl := Option.some.inj h
    exact .of_eq rfl

def binds (w : World) (p : AdapterId) : Bool :=
  match w.grp with
  | none => false
  | some g => g.primary = some p && bindable (w.adapter p)

theorem fields_eq (hg : w.grp = some g) : w.fields = (g.tfm, w.kernel) := by
  simp [World.fields, hg]

theorem bindSession_fields (ok : Tfm → Bool) (opens : AdapterId → Bool) (w : World)
    (p : AdapterId) : (bindSession ok opens w p).2.fields =
      if binds w p then tfms.foldl (cryptoInitTfm ok) w.fields else w.fields := by
  unfold bindSession binds
  cases hg : w.grp with
  | none => rfl
  | some g =>
    dsimp only
    by_cases hp : g.primary = some p
    · rw [if_neg (not_not.mpr hp)]
      by_cases hb : bindable (w.adapter p)
      · obtain ⟨hgrp, hkernel⟩ := foldl_enableHelperMonitor_grp opens
          (cryptoInit ok w (g.bind (w.adapter p) (w.radio p))).2.boundChannel
          (cryptoInit ok w (g.bind (w.adapter p) (w.radio p))).2.helpers
          ((cryptoInit ok w (g.bind (w.adapter p) (w.radio p))).1.setGrp
            (cryptoInit ok w (g.bind (w.adapter p) (w.radio p))).2)
        rw [if_neg (by simp [hb]), if_pos (by simp [hp, hb]), fields_eq hg]
        refine (fields_eq (hgrp.trans (setGrp_grp _ _))).trans ?_
        rw [hkernel]
        rfl
      · rw [if_pos (by simp [hb]), if_neg (by simp [hb])]
    · rw [if_pos hp, if_neg (by simp [hp])]

theorem unbindSession_fields (w : World) : (unbindSession w).fields =
    if w.grp.isSome then tfms.foldl cryptoDeinitTfm w.fields else w.fields := by
  unfold unbindSession
  cases hg : w.grp with
  | none => rfl
  | some g =>
    rw [if_pos Option.isSome_some, fields_eq hg]
    refine (fields_eq (setGrp_grp _ _)).trans (Prod.ext ?_ ?_)
    · dsimp only [Group.purge]
      split_ifs <;> rfl
    · simp [cryptoDeinit]

theorem deinit_fields (w : World) : (deinit w).fields =
    if w.grp.isSome then tfms.foldl cryptoDeinitTfm w.fields else w.fields := by
  unfold deinit
  cases hg : w.grp with
  | none => rfl
  | some g =>
    rw [if_pos Option.isSome_some, fields_eq hg]
    refine Prod.ext ?_ ?_
    · funext t
      exact (foldl_cryptoDeinitTfm_eq_none (g.tfm, w.kernel) t).symm
    · simp [cryptoDeinit, World.fields]

/-- The step that breaks it. -/
def losesTransform (w : World) : Event → Bool
  | .bindSession _ _ p => binds w p && tfms.any fun t => (w.fields.1 t).isSome
  | _ => false

theorem held_of_eq_none {s : Fields} (hfield : ∀ t, s.1 t = none) (hlive : s.2.live = [])
    (hfree : s.2.doubleFree = false) : Held s where
  unique t _ i ht := by simp [hfield] at ht
  lt_next t i ht := by simp [hfield] at ht
  nodup := by
    rw [hlive]
    exact List.nodup_nil
  mem_live i := by simp [hfield, hlive]
  doubleFree := hfree

/-- The driver's transforms are balanced. -/
def World.Held (w : World) : Prop := Coop.Held w.fields

theorem next_held {e : Event} (h : w.Held) (he : losesTransform w e = false)
    (hnext : w.next e = some w') : w'.Held := by
  unfold World.Held at h ⊢
  by_cases hcrypto : e.isCrypto
  · cases e with
    | bindSession ok opens p =>
      obtain rfl := Option.some.inj hnext
      rw [bindSession_fields]
      split
      · next hbinds =>
        refine h.cryptoInit ok fun t => ?_
        simp only [losesTransform, hbinds, Bool.true_and, List.any_eq_false] at he
        simpa using he t (by cases t <;> simp [tfms])
      · exact h
    | unbindSession =>
      obtain rfl := Option.some.inj hnext
      rw [unbindSession_fields]
      split
      · exact h.cryptoDeinit
      · exact h
    | deinit =>
      obtain rfl := Option.some.inj hnext
      rw [deinit_fields]
      split
      · exact h.cryptoDeinit
      · exact h
    | _ => simp [Event.isCrypto] at hcrypto
  · exact (next_sameTransforms (Bool.eq_false_iff.mpr hcrypto) hnext).held h

/-- **The live transforms are those of the group's fields**, each of one field, none is freed twice
and none is left behind `rtw_coop_rx_deinit`, in every run in which no session is bound while the
group has transforms. -/
theorem transforms_held (hw : Started w) {es : List Event}
    (hok : Meets World.next (fun w e => losesTransform w e = false) w es)
    (hrun : run World.next w es = some w') :
    w'.kernel.live.Nodup ∧ (∀ i, i ∈ w'.kernel.live ↔ ∃ g ∈ w'.grp, ∃ t, g.tfm t = some i) ∧
      (∀ g ∈ w'.grp, ∀ t t' i, g.tfm t = some i → g.tfm t' = some i → t = t') ∧
      w'.kernel.doubleFree = false ∧ (deinit w').kernel.live = [] := by
  have hstart : w.Held :=
    held_of_eq_none (fun t => by simp [World.fields, hw.grp]) hw.kernel hw.doubleFree
  have hinv : w'.Held :=
    run_invariant_of_meets (fun _ _ _ => next_held) hstart hok hrun
  have hfield : ∀ t i, w'.fields.1 t = some i ↔ ∃ g ∈ w'.grp, g.tfm t = some i := fun t i =>
    Option.bind_eq_some_iff
  refine ⟨hinv.nodup, fun i => ?_, fun g hg t t' i ht ht' => ?_, hinv.doubleFree, ?_⟩
  · refine (hinv.mem_live i).trans ?_
    simp only [hfield]
    exact ⟨fun ⟨t, g, hg, ht⟩ => ⟨g, hg, t, ht⟩, fun ⟨g, hg, t, ht⟩ => ⟨t, g, hg, ht⟩⟩
  · exact hinv.unique t t' i ((hfield t i).mpr ⟨g, hg, ht⟩) ((hfield t' i).mpr ⟨g, hg, ht'⟩)
  · have hheld : (deinit w').Held := next_held (e := .deinit) hinv rfl rfl
    refine List.eq_nil_iff_forall_not_mem.mpr fun i hi => ?_
    obtain ⟨t, ht⟩ := (hheld.mem_live i).mp hi
    have hnone : (deinit w').grp = none := by
      unfold deinit
      split
      · assumption
      · rfl
    simp [World.fields, hnone] at ht

def rebindRun : List Event :=
  bindRun ++ [.unbindSession, .bindSession (fun _ => true) (fun _ => true) 0]

theorem transforms_held_rebind :
    ∃ w', run World.next idleWorld rebindRun = some w' ∧ w'.kernel.live = [5, 4, 3] ∧
      w'.kernel.doubleFree = false ∧ (deinit w').kernel.live = [] :=
  ⟨_, rfl, rfl, (@transforms_held idleWorld _ idleWorld_started rebindRun (by decide +kernel)
    rfl).2.2.2⟩

/-- A session that is bound twice loses the transforms of the first time. -/
theorem not_transforms_held :
    ¬∀ (w : World) (es : List Event) (w' : World), Started w → run World.next w es = some w' →
      ∀ i, i ∈ w'.kernel.live ↔ ∃ g ∈ w'.grp, ∃ t, g.tfm t = some i := by
  intro h
  have hlost := (h idleWorld (bindRun ++ [.bindSession (fun _ => true) (fun _ => true) 0]) _
    idleWorld_started rfl 0).mp (by decide)
  obtain ⟨g, hg, t, ht⟩ := hlost
  obtain rfl := Option.some.inj hg
  revert ht
  cases t <;> decide

end Rtl88x2eu.Coop
