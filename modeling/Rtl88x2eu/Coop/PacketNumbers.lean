import Rtl88x2eu.Coop.GroupState
import Rtl88x2eu.Coop.KernelPath
import Rtl88x2eu.Recv.Caches

/-!
# The packet number cache

The packet numbers of a station are cached by `recv_ucast_pn_decache`, which compares them modulo
2^48, and by the drain behind the kernel's decryption, which does not compare them and writes for
group addressed frames as well.

## Main definitions

* `World.iv`, `PnForward`, `pnFits`

## Main results

* `pn_forward`: over runs of such frames the packet numbers only move forward
-/

namespace Rtl88x2eu.Coop

open Transition

variable {w w' : World} {g : Group} {enc : SecurityType}

def samePn (enc enc' : SecurityType) : Bool :=
  enc.isAead && enc'.isAead || enc = .tkip && enc' = .tkip

theorem ivToPn_eq_of_samePn {enc' : SecurityType} (h : samePn enc enc') (iv : Bytes) :
    ivToPn enc iv = ivToPn enc' iv := by
  simp only [samePn, Bool.or_eq_true, Bool.and_eq_true, decide_eq_true_eq] at h
  obtain ⟨h₁, h₂⟩ | ⟨rfl, rfl⟩ := h
  · simp [ivToPn, h₁, h₂, ne_tkip_of_isAead h₁, ne_tkip_of_isAead h₂]
  · rfl

theorem le_of_validPnChk {new old : ℕ} (h : validPnChk new old) (hnear : old < new + 2 ^ 47) :
    old ≤ new := by
  by_contra hlt
  simp only [validPnChk, Bool.or_eq_true, decide_eq_true_eq] at h
  obtain rfl | h := h
  · omega
  · omega

/-- The cached initialisation vectors. -/
def World.iv (w : World) (i : AdapterId) (s : StaId) (t : Tid) : Bytes := ((w.adapter i).sta s).iv t

def Event.handles (w : World) : Event → Option (AdapterId × StaId × RecvFrame)
  | .decache i s f => some (i, s, f)
  | .drain _ _ =>
    w.grp.bind fun g =>
      match g.primary, g.pendingQueue with
      | some primary, f :: _ => f.psta.map fun s => (primary, s, f)
      | _, _ => none
  | _ => none

/-- No packet number goes back, and one changes only for a unicast frame of its station and TID. -/
def PnForward (enc : SecurityType) (w : World) (e : Event) (w' : World) : Prop :=
  ∀ i s t, ivToPn enc (w.iv i s t) ≤ ivToPn enc (w'.iv i s t) ∧
    (w'.iv i s t ≠ w.iv i s t → ∃ f, e.handles w = some (i, s, f) ∧
      f.attrib.ra.isMcast = false ∧ Tid.clamp f.attrib.priority = t)

theorem PnForward.of_iv {e : Event}
    (h : ∀ i s, ((w'.adapter i).sta s).iv = ((w.adapter i).sta s).iv) :
    PnForward enc w e w' := by
  intro i s t
  have hiv : w'.iv i s t = w.iv i s t := congrFun (h i s) t
  rw [hiv]
  exact ⟨le_rfl, fun hne => absurd rfl hne⟩

theorem PnForward.of_write {e : Event} {i : AdapterId} {s : StaId} {f : RecvFrame} {t : Tid}
    {iv : Bytes} (he : e.handles w = some (i, s, f)) (hucast : f.attrib.ra.isMcast = false)
    (htid : Tid.clamp f.attrib.priority = t) (hle : ivToPn enc (w.iv i s t) ≤ ivToPn enc iv)
    (hself : ((w'.adapter i).sta s).iv = Function.update ((w.adapter i).sta s).iv t iv)
    (hother : ∀ j r, ¬(j = i ∧ r = s) → ((w'.adapter j).sta r).iv = ((w.adapter j).sta r).iv) :
    PnForward enc w e w' := by
  intro j r u
  by_cases hcache : (j = i ∧ r = s) ∧ u = t
  · obtain ⟨⟨rfl, rfl⟩, rfl⟩ := hcache
    have hiv : w'.iv j r u = iv := by
      simp only [World.iv, hself, Function.update_self]
    rw [hiv]
    exact ⟨hle, fun _ => ⟨f, he, hucast, htid⟩⟩
  · have hiv : w'.iv j r u = w.iv j r u := by
      by_cases hsta : j = i ∧ r = s
      · obtain ⟨rfl, rfl⟩ := hsta
        have hu : u ≠ t := fun hu => hcache ⟨⟨rfl, rfl⟩, hu⟩
        simp only [World.iv, hself, Function.update_of_ne hu]
      · exact congrFun (hother j r hsta) u
    rw [hiv]
    exact ⟨le_rfl, fun hne => absurd rfl hne⟩

def drainConsumes (k : KernelCrypto) (c : GroupCrypto) (a : Adapter) (f : RecvFrame) : Bool :=
  match drainDecache a f with
  | (false, _) => false
  | (true, a) =>
    !drainLate a f && f.attrib.encrypt ≠ .noPrivacy && !f.attrib.bdecrypted &&
      f.attrib.encrypt.isAead && (coopRxKernelDecrypt k c a (setKeyIndex f)).1.isSome

def framePn (enc : SecurityType) (f : RecvFrame) : ℕ :=
  ivToPn enc (f.rxData.drop f.attrib.hdrlen)

/-- A frame that the check caches numbers its packets like the others, and the cached number is less
than half the number space ahead; a frame that the kernel decrypts is unicast, and the cached number
is not ahead. The rest of the driver leaves the caches alone. -/
def pnFits (enc : SecurityType) (w : World) : Event → Bool
  | .decache i s f =>
    f.attrib.ra.isMcast || !f.attrib.encrypt.hasPn ||
      samePn enc f.attrib.encrypt &&
        ivToPn enc (w.iv i s (Tid.clamp f.attrib.priority)) < framePn enc f + 2 ^ 47
  | .drain _ k =>
    match w.grp with
    | none => true
    | some g =>
      match g.primary, g.pendingQueue with
      | some primary, f :: _ =>
        !drainConsumes k (w.groupCrypto g) (w.adapter primary) f ||
          match f.psta with
          | none => true
          | some s =>
            !f.attrib.ra.isMcast &&
              ivToPn enc (w.iv primary s (Tid.clamp f.attrib.priority)) ≤ framePn enc f
      | _, _ => true
  | .adapterStep i a => decide (∀ s t, (a.sta s).iv t = w.iv i s t)
  | _ => true

/-! ## What leaves the caches alone -/

def World.SameCaches (w w' : World) : Prop := ∀ i, (w.adapter i).SameCaches (w'.adapter i)

namespace World.SameCaches

theorem of_adapter (h : w'.adapter = w.adapter) : w.SameCaches w' := by
  intro i
  rw [h]
  exact Adapter.SameCaches.refl _

theorem trans {w₁ w₂ w₃ : World} (h : w₁.SameCaches w₂) (h' : w₂.SameCaches w₃) :
    w₁.SameCaches w₃ := fun i => (h i).trans (h' i)

theorem setAdapter {i : AdapterId} {a : Adapter} (h : (w.adapter i).SameCaches a) :
    w.SameCaches (w.setAdapter i a) := by
  intro j
  by_cases hj : j = i
  · subst hj
    simpa [World.setAdapter] using h
  · simpa [World.setAdapter, hj] using Adapter.SameCaches.refl _

theorem freePending (w : World) (frames : List RecvFrame) (i : Option AdapterId) :
    w.SameCaches (w.freePending frames i) := by
  cases i with
  | none => exact of_adapter rfl
  | some i => exact setAdapter (rtwFreeRecvframeQueue_sameCaches _ frames)

end World.SameCaches

theorem setPrimary_adapter (w : World) (a : AdapterId) :
    (setPrimary w a).2.adapter = w.adapter := by
  unfold setPrimary
  split
  · rfl
  · split <;> rfl

theorem addHelper_adapter (w : World) (a : AdapterId) : (addHelper w a).2.adapter = w.adapter := by
  unfold addHelper
  split
  · rfl
  · split_ifs <;> rfl

theorem removeHelper_adapter (w : World) (a : AdapterId) :
    (removeHelper w a).2.adapter = w.adapter := by
  unfold removeHelper
  split
  · rfl
  · split <;> rfl

theorem dropPrimary_sameCaches (w : World) (a : AdapterId) : w.SameCaches (dropPrimary w a) := by
  unfold dropPrimary
  split
  · exact .of_adapter rfl
  · next g _ =>
    split
    · exact World.SameCaches.freePending w g.pendingQueue (some a)
    · exact .of_adapter rfl

theorem enableHelperMonitor_sameCaches (opens : AdapterId → Bool) (ch : ℕ) (w : World)
    (h : AdapterId) : w.SameCaches (enableHelperMonitor opens ch w h) := by
  unfold enableHelperMonitor
  exact World.SameCaches.setAdapter fun _ => rfl

theorem bindSession_sameCaches (ok : Tfm → Bool) (opens : AdapterId → Bool) (w : World)
    (p : AdapterId) : w.SameCaches (bindSession ok opens w p).2 := by
  have hfold : ∀ (ch : ℕ) (hs : List AdapterId) (w : World),
      w.SameCaches (hs.foldl (enableHelperMonitor opens ch) w) := by
    intro ch hs
    induction hs with
    | nil => exact fun w => .of_adapter rfl
    | cons h hs ih => exact fun w => (enableHelperMonitor_sameCaches opens ch w h).trans (ih _)
  unfold bindSession
  split
  · exact .of_adapter rfl
  split
  · exact .of_adapter rfl
  split
  · exact .of_adapter rfl
  · exact fun i => hfold _ _ ((cryptoInit ok w _).1.setGrp _) i

theorem notifyChannelSwitch_adapter (w : World) (a : AdapterId) :
    (notifyChannelSwitch w a).adapter = w.adapter := by
  have hfold : ∀ (new : ChannelDef) (hs : List AdapterId) (w : World),
      (hs.foldl (retuneHelper new) w).adapter = w.adapter := by
    intro new hs
    induction hs with
    | nil => exact fun w => rfl
    | cons h hs ih =>
      intro w
      rw [List.foldl_cons, ih]
      unfold retuneHelper
      dsimp only
      split <;> rfl
  unfold notifyChannelSwitch
  split
  · rfl
  split
  · rfl
  dsimp only
  split
  · rfl
  · exact hfold _ _ _

theorem submitHelperFrame_sameCaches (w : World) (h : AdapterId) (f : RecvFrame) :
    w.SameCaches (submitHelperFrame w h f).2 := by
  have halloc : ∀ (a : Adapter) (r : Option ℕ × Adapter), rtwAllocRecvframe a = r →
      a.SameCaches r.2 := by
    rintro a r rfl
    unfold rtwAllocRecvframe
    split <;> exact fun _ => rfl
  unfold submitHelperFrame
  split
  · exact .of_adapter rfl
  split
  · exact .of_adapter rfl
  next primary _ =>
  split
  · exact .of_adapter rfl
  dsimp only
  split
  · exact .of_adapter rfl
  split
  · exact .of_adapter rfl
  · next id a heq =>
    have hprimary : w.SameCaches (w.setAdapter primary a) :=
      World.SameCaches.setAdapter (halloc _ _ heq)
    refine hprimary.trans ((World.SameCaches.setAdapter (i := h)
      (rtwFreeRecvframe_sameCaches _ f.id)).trans ?_)
    unfold submitEnqueue
    dsimp only
    split
    · exact World.SameCaches.freePending _ _ (some primary)
    · exact .of_adapter rfl

def Event.writesCaches : Event → Bool
  | .decache _ _ _ | .drain _ _ | .adapterStep _ _ => true
  | _ => false

theorem next_sameCaches {e : Event} (he : e.writesCaches = false) (h : w.next e = some w') :
    w.SameCaches w' := by
  have hset : ∀ w' a, w.SameCaches w' → w.SameCaches (setPrimary w' a).2 :=
    fun w' a h => h.trans (.of_adapter (setPrimary_adapter w' a))
  have hadd : ∀ w' a, w.SameCaches w' → w.SameCaches (addHelper w' a).2 :=
    fun w' a h => h.trans (.of_adapter (addHelper_adapter w' a))
  cases e with
  | setPrimary a =>
    obtain rfl := Option.some.inj h
    exact .of_adapter (setPrimary_adapter w a)
  | addHelper a =>
    obtain rfl := Option.some.inj h
    exact .of_adapter (addHelper_adapter w a)
  | removeHelper a =>
    obtain rfl := Option.some.inj h
    exact .of_adapter (removeHelper_adapter w a)
  | removeAdapter a =>
    obtain rfl := Option.some.inj h
    exact (World.SameCaches.of_adapter (removeHelper_adapter w a)).trans
      (dropPrimary_sameCaches _ a)
  | pair a name =>
    obtain rfl := Option.some.inj h
    exact storePair_induction hset hadd (.of_adapter rfl) a name
  | unpair name =>
    obtain rfl := Option.some.inj h
    obtain heq | ⟨a, heq⟩ := storeUnpair_cases w name
    · exact .of_adapter (by rw [heq])
    · exact .of_adapter (by rw [heq, removeHelper_adapter])
  | autoPair a val devs =>
    obtain rfl := Option.some.inj h
    exact storeAutoPair_induction hset hadd (.of_adapter rfl) a val devs
  | bindSession ok opens p =>
    obtain rfl := Option.some.inj h
    exact bindSession_sameCaches ok opens w p
  | unbindSession =>
    obtain rfl := Option.some.inj h
    unfold unbindSession
    split
    · exact .of_adapter rfl
    · exact fun i => World.SameCaches.freePending (cryptoDeinit w _).1 _ _ i
  | resetStats =>
    obtain rfl := Option.some.inj h
    unfold storeResetStats
    split <;> exact .of_adapter rfl
  | deinit =>
    obtain rfl := Option.some.inj h
    unfold deinit
    split
    · exact .of_adapter rfl
    · exact fun i => World.SameCaches.freePending (cryptoDeinit w _).1 _ _ i
  | switchChannel a cur =>
    obtain rfl := Option.some.inj h
    exact .of_adapter (notifyChannelSwitch_adapter _ a)
  | submit a f =>
    obtain rfl := Option.some.inj h
    exact submitHelperFrame_sameCaches w a f
  | kernelDecrypt k a f =>
    obtain rfl := Option.some.inj h
    unfold kernelDecrypt
    split <;> exact .of_adapter rfl
  | setIfUp a up =>
    obtain rfl := Option.some.inj h
    exact .of_adapter rfl
  | decache | drain | adapterStep => simp [Event.writesCaches] at he

section Writers

variable {env : Env} {k : KernelCrypto} {c : GroupCrypto} {a : Adapter} {s : StaId} {f : RecvFrame}

theorem recvDecache_iv (a : Adapter) (s : StaId) (attrib : RxPktAttrib) (r : StaId) :
    ((recvDecache a s attrib).2.sta r).iv = (a.sta r).iv := by
  have hset : ((a.sta s).setPrxseq attrib (Tid.clamp attrib.priority)).iv = (a.sta s).iv := by
    unfold StaInfo.setPrxseq
    split <;> rfl
  unfold recvDecache
  dsimp only
  by_cases hr : r = s
  · subst hr
    split_ifs
    · rfl
    · rw [setSta_sta]
    · rw [setSta_sta, hset]
  · split_ifs
    · rfl
    · rw [setSta_sta_of_ne _ _ hr]
    · rw [setSta_sta_of_ne _ _ hr]

theorem decacheDataFrame_iv (a : Adapter) (s : StaId) (f : RecvFrame) :
    (∀ r, ((decacheDataFrame a s f).2.sta r).iv = (a.sta r).iv) ∨
      (f.attrib.ra.isMcast = false ∧ f.attrib.encrypt.hasPn ∧
        validPnChk (framePn f.attrib.encrypt f)
          (ivToPn f.attrib.encrypt ((a.sta s).iv (Tid.clamp f.attrib.priority))) ∧
        ((decacheDataFrame a s f).2.sta s).iv = Function.update (a.sta s).iv
          (Tid.clamp f.attrib.priority) ((f.rxData.drop f.attrib.hdrlen).take 8) ∧
        ∀ r, r ≠ s → ((decacheDataFrame a s f).2.sta r).iv = (a.sta r).iv) := by
  have hdecache := recvDecache_iv a s f.attrib
  unfold decacheDataFrame
  split
  · next a₁ heq =>
    rw [heq] at hdecache
    exact Or.inl hdecache
  · next a₁ heq =>
    rw [heq] at hdecache
    dsimp only at hdecache
    split
    · -- a group addressed frame: the key's own counter is written
      refine Or.inl fun r => (Eq.trans ?_ (hdecache r))
      unfold recvBcastPnDecache
      dsimp only
      split_ifs <;> rfl
    · next hmcast =>
      unfold recvUcastPnDecache
      dsimp only
      split_ifs with hprio hpn
      · exact Or.inl hdecache
      · refine Or.inr ⟨by simpa using hmcast, hpn.1, ?_, ?_, fun r hr => ?_⟩
        · rw [← hdecache s]
          exact hpn.2
        · rw [setSta_sta, hdecache s]
        · rw [setSta_sta_of_ne _ _ hr]
          exact hdecache r
      · exact Or.inl hdecache

theorem drainDecache_iv (a : Adapter) (f : RecvFrame) (r : StaId) :
    ((drainDecache a f).2.sta r).iv = (a.sta r).iv := by
  have hset : ∀ p : StaInfo, (p.setPrxseq f.attrib (Tid.clamp f.attrib.priority)).iv = p.iv := by
    intro p
    unfold StaInfo.setPrxseq
    split <;> rfl
  unfold drainDecache
  split
  · rfl
  · next s _ =>
    dsimp only
    split
    · rfl
    · by_cases hr : r = s
      · subst hr
        rw [setSta_sta, hset]
      · rw [setSta_sta_of_ne _ _ hr]

theorem coopPostDecrypt_sameCaches (a : Adapter) (f : RecvFrame) :
    a.SameCaches (coopPostDecrypt env a f).2 := by
  unfold coopPostDecrypt
  split
  · exact recvIndicatepktReorder_sameCaches a _
  · exact recvProcessMpdu_sameCaches a f

theorem drainFrame_iv (env : Env) (k : KernelCrypto) (c : GroupCrypto) (a : Adapter)
    (f : RecvFrame) :
    (∀ r, ((drainFrame env k c a f).2.sta r).iv = (a.sta r).iv) ∨
      (drainConsumes k c a f ∧ ∃ s, f.psta = some s ∧
        ((drainFrame env k c a f).2.sta s).iv = Function.update (a.sta s).iv
          (Tid.clamp f.attrib.priority) ((f.rxData.drop f.attrib.hdrlen).take 8) ∧
        ∀ r, r ≠ s → ((drainFrame env k c a f).2.sta r).iv = (a.sta r).iv) := by
  have hdecache := drainDecache_iv a f
  unfold drainFrame
  split
  · next a₁ heq =>
    rw [heq] at hdecache
    exact Or.inl hdecache
  next a₁ heq =>
  rw [heq] at hdecache
  dsimp only at hdecache ⊢
  split
  · exact Or.inl hdecache
  next hlate =>
  unfold drainProcess
  split
  · next henc =>
    split
    · next haead =>
      unfold drainAead
      split
      · next f' c' hker =>
        -- the kernel decrypts
        obtain ⟨s, hpsta⟩ := coopRxKernelDecrypt_psta hker
        have hpsta : f.psta = some s := hpsta
        have htail := (@coopPostDecrypt_sameCaches env (consumePn a₁ (setKeyIndex f)) f').iv
        let iv := Function.update (a₁.sta s).iv (Tid.clamp f.attrib.priority)
          ((f.rxData.drop f.attrib.hdrlen).take 8)
        have hconsume : consumePn a₁ (setKeyIndex f) = a₁.setSta s { a₁.sta s with iv := iv } := by
          simp only [consumePn, setKeyIndex, hpsta, iv]
        rw [hconsume] at htail
        refine Or.inr ⟨?_, s, hpsta, ?_, fun r hr => ?_⟩
        · simp only [drainConsumes, heq, hlate, henc.2, haead, hker]
          simp [henc.1]
        · dsimp only
          rw [hconsume, htail, setSta_sta, ← hdecache s]
        · dsimp only
          rw [hconsume, htail, setSta_sta_of_ne _ _ hr]
          exact hdecache r
      · exact Or.inl fun r => ((recvFuncPosthandle_sameCaches _ _).iv r).trans (hdecache r)
    · exact Or.inl fun r => ((recvFuncPosthandle_sameCaches _ _).iv r).trans (hdecache r)
  · exact Or.inl fun r => ((coopPostDecrypt_sameCaches _ _).iv r).trans (hdecache r)

end Writers

theorem next_pnForward {e : Event} (he : pnFits enc w e) (h : w.next e = some w') :
    PnForward enc w e w' := by
  cases e with
  | decache i s f =>
    obtain rfl := Option.some.inj h
    have hother : ∀ j, j ≠ i → ∀ r,
        (((w.setAdapter i (decacheDataFrame (w.adapter i) s f).2).adapter j).sta r).iv =
          ((w.adapter j).sta r).iv := by
      intro j hj r
      simp [World.setAdapter, hj]
    have hadapter : (w.setAdapter i (decacheDataFrame (w.adapter i) s f).2).adapter i =
        (decacheDataFrame (w.adapter i) s f).2 := by
      simp [World.setAdapter]
    obtain hsame | ⟨hucast, hpn, hvalid, hself, hsta⟩ := decacheDataFrame_iv (w.adapter i) s f
    · refine PnForward.of_iv fun j r => ?_
      by_cases hj : j = i
      · rw [hj, hadapter]
        exact hsame r
      · exact hother j hj r
    · refine PnForward.of_write rfl hucast rfl ?_ ((congrArg _ ?_).trans hself) fun j r hne => ?_
      · simp only [pnFits, hucast, hpn, Bool.not_true, Bool.false_or, Bool.and_eq_true,
          decide_eq_true_eq] at he
        obtain ⟨hlike, hnear⟩ := he
        rw [ivToPn_take]
        rw [← ivToPn_eq_of_samePn hlike, framePn, ← ivToPn_eq_of_samePn hlike] at hvalid
        exact le_of_validPnChk hvalid hnear
      · rw [hadapter]
      · by_cases hj : j = i
        · rw [hj, hadapter]
          exact hsta r fun hr => hne ⟨hj, hr⟩
        · exact hother j hj r
  | drain env k =>
    obtain ⟨g, p, f, q, hg, hp, hq, rfl⟩ := drainIteration_cases h
    simp only [pnFits, hg, hp, hq] at he
    have hiv := drainFrame_iv env k (w.groupCrypto g) (w.adapter p) f
    generalize drainFrame env k (w.groupCrypto g) (w.adapter p) f = r at hiv
    have hadapter : ∀ (g' : Group) j t,
        ((((w.setAdapter p r.2).storeCrypto g' r.1).adapter j).sta t).iv =
          ((if j = p then r.2 else w.adapter j).sta t).iv := by
      intro g' j t
      simp only [World.storeCrypto, World.setAdapter, setGrp_adapter, Function.update_apply]
    obtain hsame | ⟨hconsumes, s, hpsta, hself, hsta⟩ := hiv
    · refine PnForward.of_iv fun j t => (hadapter _ j t).trans ?_
      split
      · next hj =>
        rw [hj]
        exact hsame t
      · rfl
    · rw [hconsumes, hpsta] at he
      simp only [Bool.not_true, Bool.false_or, Bool.and_eq_true, Bool.not_eq_true',
        decide_eq_true_eq] at he
      have hhandles : (Event.drain env k).handles w = some (p, s, f) := by
        simp [Event.handles, hg, hp, hq, hpsta]
      have hle : ivToPn enc (w.iv p s (Tid.clamp f.attrib.priority)) ≤
          ivToPn enc ((f.rxData.drop f.attrib.hdrlen).take 8) := by
        rw [ivToPn_take]
        exact he.2
      refine PnForward.of_write hhandles he.1 rfl hle ?_ fun j t hne => ?_
      · rw [hadapter, if_pos rfl]
        exact hself
      · rw [hadapter]
        split
        · next hj =>
          rw [hj]
          exact hsta t fun ht => hne ⟨hj, ht⟩
        · rfl
  | adapterStep i a =>
    obtain rfl := Option.some.inj h
    have he : ∀ s t, (a.sta s).iv t = w.iv i s t := of_decide_eq_true he
    refine PnForward.of_iv fun j s => ?_
    by_cases hj : j = i
    · subst hj
      funext t
      simp only [World.setAdapter, Function.update_self]
      exact he s t
    · simp [World.setAdapter, hj]
  | _ => exact PnForward.of_iv fun i => (next_sameCaches rfl h i).iv

/-- **The packet numbers only move forward**, each for the unicast frames of its station and TID, in
every run of frames that fit. -/
theorem pn_forward (enc : SecurityType) {es : List Event}
    (hok : Meets World.next (fun w e => pnFits enc w e) w es)
    (hrun : run World.next w es = some w') :
    (∀ i s t, ivToPn enc (w.iv i s t) ≤ ivToPn enc (w'.iv i s t)) ∧
      Meets World.next (fun w e => ∀ w', w.next e = some w' → PnForward enc w e w') w es := by
  refine ⟨fun i s t => ?_, hok.imp fun _ _ he _ h => next_pnForward he h⟩
  refine @run_invariant_of_meets _ _ World.next _
    (fun w₁ => ivToPn enc (w.iv i s t) ≤ ivToPn enc (w₁.iv i s t)) _ _ _ ?_ le_rfl hok hrun
  intro w₁ e w₂ hle he hnext
  exact hle.trans (next_pnForward he hnext i s t).1

def pnStation : Adapter :=
  { associated with
    staHash := [0]
    sta := fun _ => { dot118021xUncstKey := List.replicate 32 7 }
    freeRecvQueue := [0, 1] }

def pnFrame (seqNum : ℕ) (pn : UInt8) : RecvFrame where
  id := 0
  attrib := { toFrDs := 2, hdrlen := 24, seqNum, privacy := true, encrypt := .aes, ivLen := 8,
              icvLen := 8 }
  rxData := List.replicate 24 0 ++ [pn, 0, 0, 0x20, 0, 0, 0, 0] ++ List.replicate 40 0

/-- The helper hands over two frames. -/
def pnRun (pn pn' : UInt8) : List Event :=
  bindRun ++ [.adapterStep 0 pnStation, .submit 1 (pnFrame 1 pn), .submit 1 (pnFrame 2 pn'),
    .drain plainEnv plainKernel]

set_option maxRecDepth 4000 in
/-- Frames that are pending in the order of their numbers. -/
theorem pn_forward_in_order :
    ∃ w', run World.next idleWorld (pnRun 5 9 ++ [.drain plainEnv plainKernel]) = some w' ∧
      ivToPn .aes (w'.iv 0 0 0) = 9 ∧
      ∀ i s t, ivToPn .aes (idleWorld.iv i s t) ≤ ivToPn .aes (w'.iv i s t) :=
  ⟨_, rfl, by decide +kernel,
    (@pn_forward idleWorld _ .aes (pnRun 5 9 ++ [.drain plainEnv plainKernel]) (by decide +kernel)
      rfl).1⟩

def Event.isReceive : Event → Bool
  | .decache _ _ _ | .submit _ _ | .drain _ _ => true
  | _ => false

/-- The second frame has the smaller number, and the cached number goes back. -/
theorem not_pn_forward :
    ¬∀ (enc : SecurityType) (w w₁ w₂ : World) (es es' : List Event), Started w →
      run World.next w es = some w₁ → (∀ e ∈ es', e.isReceive) →
      run World.next w₁ es' = some w₂ →
        ∀ i s t, ivToPn enc (w₁.iv i s t) ≤ ivToPn enc (w₂.iv i s t) := by
  intro h
  have hle := h .aes idleWorld _ _ (pnRun 9 5) [.drain plainEnv plainKernel] idleWorld_started rfl
    (by decide) rfl 0 0 0
  revert hle
  decide +kernel

end Rtl88x2eu.Coop
