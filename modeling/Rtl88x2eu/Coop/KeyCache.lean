import Rtl88x2eu.Coop.Transforms

/-!
# The cached key

`coop_rx_kernel_decrypt` skips `crypto_aead_setkey` for a key that it has set last. The group keeps
one key for its three transforms, and keeps it when they are freed and allocated again, so the key
may not be on the transform that the frame goes to.

## Main definitions

* `Event.aeadCall`, `Traced`, `keyFits`

## Main results

* `calls_keyed_iff`: the calls of a run are made with the selected keys exactly if every step is fit
-/

namespace Rtl88x2eu.Coop

open Transition

variable {w w' : World} {g : Group} {k : KernelCrypto} {a : Adapter} {f : RecvFrame}

/-- The transform on which `coop_rx_kernel_decrypt` calls `crypto_aead_decrypt` and the key that it
has selected, if it gets there. -/
def aeadCall (k : KernelCrypto) (w : World) (g : Group) (a : Adapter) (f : RecvFrame) :
    Option (TfmId × Bytes) :=
  match f.psta, tfmOf f.attrib.encrypt with
  | some s, some t =>
    match g.tfm t, coopKey a s f.attrib with
    | some i, some key =>
      if ((w.groupCrypto g).setKey k t key).1 ∧
          f.attrib.hdrlen + 8 + aeadMicLen f.attrib.encrypt < f.len ∧ k.aeadRequestAlloc a f then
        some (i, key)
      else none
    | _, _ => none
  | _, _ => none

def drainCall (k : KernelCrypto) (w : World) (g : Group) (a : Adapter) (f : RecvFrame) :
    Option (TfmId × Bytes) :=
  match drainDecache a f with
  | (false, _) => none
  | (true, a) =>
    if drainLate a f then none
    else if f.attrib.encrypt ≠ .noPrivacy ∧ !f.attrib.bdecrypted ∧ f.attrib.encrypt.isAead then
      aeadCall k w g a (setKeyIndex f)
    else none

/-- The call of `crypto_aead_decrypt` in a step. -/
def Event.aeadCall (w : World) (g : Group) : Event → Option (TfmId × Bytes)
  | .kernelDecrypt k a f => Coop.aeadCall k w g a f
  | .drain _ k =>
    match g.primary, g.pendingQueue with
    | some primary, f :: _ => drainCall k w g (w.adapter primary) f
    | _, _ => none
  | _ => none

theorem aeadCall_cases {i : TfmId} {key : Bytes} (h : aeadCall k w g a f = some (i, key)) :
    ∃ s t, f.psta = some s ∧ tfmOf f.attrib.encrypt = some t ∧ g.tfm t = some i ∧
      coopKey a s f.attrib = some key ∧ ((w.groupCrypto g).setKey k t key).1 = true ∧
      f.attrib.hdrlen + 8 + aeadMicLen f.attrib.encrypt < f.len ∧ k.aeadRequestAlloc a f := by
  unfold aeadCall at h
  split at h
  · next s t hs ht =>
    split at h
    · next hi hkey =>
      split at h
      · next hcall =>
        obtain ⟨rfl, rfl⟩ := Prod.mk.inj (Option.some.inj h)
        exact ⟨s, t, hs, ht, hi, hkey, hcall.1, hcall.2⟩
      · simp at h
    · simp at h
  · simp at h

theorem coopRxKernelDecrypt_of_aeadCall {i : TfmId} {key : Bytes}
    (h : aeadCall k w g a f = some (i, key)) :
    ∃ s t, f.psta = some s ∧ tfmOf f.attrib.encrypt = some t ∧ g.tfm t = some i ∧
      coopRxKernelDecrypt k (w.groupCrypto g) a f =
        ((((w.groupCrypto g).setKey k t key).2.tfm t).join.bind (coopAeadDecrypt k a f t),
          ((w.groupCrypto g).setKey k t key).2) := by
  obtain ⟨s, t, hs, ht, hi, hkey, hset, -⟩ := aeadCall_cases h
  refine ⟨s, t, hs, ht, hi, ?_⟩
  unfold coopRxKernelDecrypt
  have htfm : ((w.groupCrypto g).tfm t).isNone = false := by simp [World.groupCrypto, hi]
  simp [hs, ht, htfm, hkey, hset]

theorem storeTfm_installed_of_ne {c : GroupCrypto} {p : AeadPool} {t : Tfm} {i : TfmId}
    (h : g.tfm t ≠ some i) : (storeTfm g c p t).installed i = p.installed i := by
  unfold storeTfm
  split
  · next j _ hj _ =>
    have hne : i ≠ j := fun heq => h (heq ▸ hj)
    simp [hne]
  · rfl
  · rfl

theorem storeTfm_installed {c : GroupCrypto} {p : AeadPool} {t : Tfm} {i : TfmId}
    (h : g.tfm t = some i) :
    (storeTfm g c p t).installed i = ((c.tfm t).join).or (p.installed i) := by
  unfold storeTfm
  split
  · next j key hj hkey =>
    obtain rfl := Option.some.inj (h.symm.trans hj)
    simp [hkey]
  · next j hj hkey => simp [hkey]
  · next hsome hnone =>
    cases hc : c.tfm t with
    | none => simp
    | some key =>
      cases key with
      | none => exact absurd hc (hnone i h)
      | some key => exact absurd hc (hsome i key h)

theorem storeCrypto_installed (hdistinct : Distinct w.fields) (hg : w.grp = some g)
    {g' : Group} (htfm : g'.tfm = g.tfm) (c : GroupCrypto) {t : Tfm} {i : TfmId}
    (ht : g.tfm t = some i) :
    (w.storeCrypto g' c).kernel.installed i = ((c.tfm t).join).or (w.kernel.installed i) := by
  have hother : ∀ {t'}, t' ≠ t → g'.tfm t' ≠ some i := by
    intro t' hne ht'
    rw [htfm] at ht'
    have hfield := fields_eq hg
    exact hne (hdistinct.unique t' t i (by rw [hfield]; exact ht') (by rw [hfield]; exact ht))
  have hself : g'.tfm t = some i := htfm ▸ ht
  change (tfms.foldl (storeTfm g' c) w.kernel).installed i = _
  simp only [tfms, List.foldl_cons, List.foldl_nil]
  cases t with
  | ccm =>
    rw [storeTfm_installed_of_ne (hother (by decide)),
      storeTfm_installed_of_ne (hother (by decide)),
      storeTfm_installed hself]
  | ccm256 =>
    rw [storeTfm_installed_of_ne (hother (by decide)), storeTfm_installed hself,
      storeTfm_installed_of_ne (hother (by decide))]
  | gcm =>
    rw [storeTfm_installed hself, storeTfm_installed_of_ne (hother (by decide)),
      storeTfm_installed_of_ne (hother (by decide))]

/-- Behind `crypto_aead_setkey`, or without it for the cached key. -/
theorem setKey_installed {t : Tfm} {i : TfmId} {key : Bytes} (ht : g.tfm t = some i)
    (hset : ((w.groupCrypto g).setKey k t key).1 = true) :
    ((((w.groupCrypto g).setKey k t key).2.tfm t).join).or (w.kernel.installed i) =
      if key = g.cachedKey then w.kernel.installed i else some key := by
  unfold GroupCrypto.setKey at hset ⊢
  by_cases hcached : key = g.cachedKey
  · have hcached' : key = (w.groupCrypto g).cachedKey := hcached
    rw [if_pos hcached', if_pos hcached]
    simp only [World.groupCrypto, ht, Option.map_some, Option.join_some, AeadPool.key]
    split
    · rfl
    · cases w.kernel.installed i <;> rfl
  · have hcached' : key ≠ (w.groupCrypto g).cachedKey := hcached
    rw [if_neg hcached'] at hset ⊢
    rw [if_neg hcached]
    split at hset
    · next htakes =>
      rw [if_pos htakes]
      simp
    · simp at hset

/-! ## Runs -/

/-- A call of `crypto_aead_decrypt`: the transform, the key selected for the frame, and the key that
the last successful `crypto_aead_setkey` on the transform installed. -/
structure AeadCall where
  tfm : TfmId
  selected : Bytes
  installed : Option Bytes
deriving DecidableEq, Repr

/-- The driver with its calls so far. -/
structure Traced where
  world : World
  calls : List AeadCall := []

def Traced.next (s : Traced) (e : Event) : Option Traced :=
  (s.world.next e).map fun w =>
    { world := w
      calls := s.calls ++ ((s.world.grp.bind fun g => e.aeadCall s.world g).map fun c =>
        ⟨c.1, c.2, w.kernel.installed c.1⟩).toList }

/-- A key that is not set is on its transform. -/
def keyFits (w : World) (e : Event) : Bool :=
  match w.grp with
  | none => true
  | some g =>
    match e.aeadCall w g with
    | none => true
    | some (i, key) => key ≠ g.cachedKey || w.kernel.installed i = some key

def Traced.Keyed (s : Traced) : Prop := ∀ c ∈ s.calls, c.installed = some c.selected

theorem drainCall_cases {env : Env} {i : TfmId} {key : Bytes}
    (h : drainCall k w g a f = some (i, key)) :
    ∃ a', aeadCall k w g a' (setKeyIndex f) = some (i, key) ∧
      (drainFrame env k (w.groupCrypto g) a f).1 =
        (coopRxKernelDecrypt k (w.groupCrypto g) a' (setKeyIndex f)).2 := by
  unfold drainCall at h
  split at h
  · simp at h
  · next a' hdecache =>
    split at h
    · simp at h
    · next hlate =>
      split at h
      · next hcipher =>
        refine ⟨a', h, ?_⟩
        unfold drainFrame
        rw [hdecache]
        dsimp only
        rw [if_neg hlate]
        unfold drainProcess drainAead
        rw [if_pos ⟨hcipher.1, hcipher.2.1⟩, if_pos hcipher.2.2]
        split
        · next heq => rw [heq]
        · next heq => rw [heq]
      · simp at h

theorem next_installed {e : Event} (hdistinct : Distinct w.fields) (hg : w.grp = some g)
    {i : TfmId} {key : Bytes} (hcall : e.aeadCall w g = some (i, key))
    (hnext : w.next e = some w') :
    w'.kernel.installed i = if key = g.cachedKey then w.kernel.installed i else some key := by
  cases e with
  | kernelDecrypt k a f =>
    obtain rfl := Option.some.inj hnext
    have hcall : aeadCall k w g a f = some (i, key) := hcall
    obtain ⟨s, t, hs, ht, hi, hkey, hset, -⟩ := aeadCall_cases hcall
    obtain ⟨s', t', hs', ht', -, hdecrypt⟩ := coopRxKernelDecrypt_of_aeadCall hcall
    obtain rfl := Option.some.inj (ht.symm.trans ht')
    unfold kernelDecrypt
    rw [hg]
    dsimp only
    rw [hdecrypt, storeCrypto_installed hdistinct hg rfl _ hi]
    exact setKey_installed hi hset
  | drain env k =>
    obtain ⟨g₀, p, f, q, hg₀, hp, hq, rfl⟩ := drainIteration_cases hnext
    obtain rfl := Option.some.inj (hg.symm.trans hg₀)
    simp only [Event.aeadCall, hp, hq] at hcall
    obtain ⟨a', hcall, hcrypto⟩ := @drainCall_cases w g k (w.adapter p) f env i key hcall
    obtain ⟨s, t, hs, ht, hi, hkey, hset, -⟩ := aeadCall_cases hcall
    obtain ⟨s', t', hs', ht', -, hdecrypt⟩ := coopRxKernelDecrypt_of_aeadCall hcall
    obtain rfl := Option.some.inj (ht.symm.trans ht')
    rw [hdecrypt] at hcrypto
    refine (@storeCrypto_installed (w.setAdapter p _) g hdistinct hg _ rfl _ t i hi).trans ?_
    refine Eq.trans ?_ (setKey_installed hi hset)
    exact congrArg (fun c : GroupCrypto => ((c.tfm t).join).or (w.kernel.installed i)) hcrypto
  | _ => simp [Event.aeadCall] at hcall

theorem Distinct.cryptoInit {s : Fields} (h : Distinct s) (ok : Tfm → Bool) :
    Distinct (tfms.foldl (cryptoInitTfm ok) s) :=
  ((h.init ok .ccm).init ok .ccm256).init ok .gcm

theorem Distinct.cryptoDeinit {s : Fields} (h : Distinct s) :
    Distinct (tfms.foldl cryptoDeinitTfm s) :=
  ((h.deinit .ccm).deinit .ccm256).deinit .gcm

theorem next_distinct {e : Event} (h : Distinct w.fields) (hnext : w.next e = some w') :
    Distinct w'.fields := by
  by_cases hcrypto : e.isCrypto
  · cases e with
    | bindSession ok opens p =>
      obtain rfl := Option.some.inj hnext
      rw [bindSession_fields]
      split
      · exact h.cryptoInit ok
      · exact h
    | unbindSession =>
      obtain rfl := Option.some.inj hnext
      rw [unbindSession_fields]
      split
      · exact h.cryptoDeinit
      · exact h
    | deinit =>
      obtain rfl := Option.some.inj hnext
      rw [deinit_fields]
      split
      · exact h.cryptoDeinit
      · exact h
    | _ => simp [Event.isCrypto] at hcrypto
  · exact (next_sameTransforms (Bool.eq_false_iff.mpr hcrypto) hnext).distinct h

def Traced.Distinct (s : Traced) : Prop := Coop.Distinct s.world.fields

theorem next_keyed_iff {s s' : Traced} {e : Event} (h : s.Distinct) (hnext : s.next e = some s') :
    s'.Distinct ∧ (s'.Keyed ↔ s.Keyed ∧ keyFits s.world e) := by
  obtain ⟨w', hw', rfl⟩ := Option.map_eq_some_iff.mp hnext
  refine ⟨next_distinct h hw', ?_⟩
  unfold Traced.Keyed keyFits
  cases hg : s.world.grp with
  | none => simp
  | some g =>
    simp only [Option.bind_some]
    rcases hcall : e.aeadCall s.world g with _ | ⟨i, key⟩
    · simp
    · have hinstalled := next_installed h hg hcall hw'
      simp only [Option.map_some, Option.toList_some, List.mem_append, List.mem_singleton,
        or_imp, forall_and, forall_eq, hinstalled]
      refine and_congr_right fun _ => ?_
      by_cases hcached : key = g.cachedKey
      · simp [hcached]
      · simp [hcached]

/-- **The calls of a run are made with the selected keys exactly if every step is fit**: a frame
whose key is the cached one finds it on the transform of its cipher. -/
theorem calls_keyed_iff (hw : Started w) {es : List Event} {s : Traced}
    (hrun : run Traced.next ⟨w, []⟩ es = some s) :
    (∀ c ∈ s.calls, c.installed = some c.selected) ↔
      Meets Traced.next (fun s e => keyFits s.world e) ⟨w, []⟩ es := by
  have hstart : Traced.Distinct ⟨w, []⟩ :=
    (held_of_eq_none (fun t => by simp [World.fields, hw.grp]) hw.kernel hw.doubleFree).toDistinct
  have hstart' : Traced.Keyed ⟨w, []⟩ := fun c hc => absurd hc List.not_mem_nil
  exact (run_iff_meets (P := Traced.Keyed) (fun _ _ _ => next_keyed_iff) hstart hrun).trans
    (and_iff_right hstart')

def keyedStation : Adapter :=
  { associated with
    sta := fun _ => { dot118021xUncstKey := List.replicate 32 7 } }

def shortCcmpFrame : RecvFrame where
  id := 0
  attrib := { hdrlen := 24, privacy := true, encrypt := .aes, ivLen := 8, icvLen := 8 }
  rxData := List.replicate 60 0
  psta := some 0

def refusingKernel : KernelCrypto where
  cryptoAeadDecrypt _ _ _ _ _ := none

def decryptCcmp : Event := .kernelDecrypt refusingKernel keyedStation shortCcmpFrame

/-- Two frames of one session under one key. -/
theorem calls_keyed_session :
    ∃ s, run Traced.next ⟨idleWorld, []⟩ (bindRun ++ [decryptCcmp, decryptCcmp]) = some s ∧
      s.calls.length = 2 ∧ ∀ c ∈ s.calls, c.installed = some c.selected :=
  ⟨_, rfl, by decide +kernel,
    (@calls_keyed_iff idleWorld idleWorld_started (bindRun ++ [decryptCcmp, decryptCcmp]) _ rfl).mpr
      (by decide +kernel)⟩

/-- The second session has new transforms and the old cached key. -/
theorem not_calls_keyed :
    ¬∀ (w : World) (es : List Event) (s : Traced), Started w →
      run Traced.next ⟨w, []⟩ es = some s → ∀ c ∈ s.calls, c.installed = some c.selected := by
  intro h
  have hkeyed := h idleWorld (bindRun ++ [decryptCcmp, .unbindSession,
    .bindSession (fun _ => true) (fun _ => true) 0, decryptCcmp]) _ idleWorld_started rfl
  revert hkeyed
  decide +kernel

end Rtl88x2eu.Coop
