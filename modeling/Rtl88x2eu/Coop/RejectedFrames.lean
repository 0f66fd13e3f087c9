import Rtl88x2eu.Coop.KernelPath
import Rtl88x2eu.Coop.PacketNumbers
import Rtl88x2eu.Recv.Delivery

/-!
# Rejected helper frames

The drain claims the sequence control value of a frame before it knows what becomes of the frame,
and never gives it back. A frame that a later stage gives up therefore costs the primary its own
copy, which `recv_decache` takes for a duplicate.

## Main definitions

* `Restored`, `CopyKept`, `drainTakes`

## Main results

* `copyKept_iff`
-/

namespace Rtl88x2eu.Coop

variable {env : Env} {k : KernelCrypto} {g : GroupCrypto} {a a₁ : Adapter} {f f' : RecvFrame}
  {s : StaId} {hand : Multiset ℕ}

/-- The caches and the windows of the frame's station are as before, and so is the answer of
`recv_decache` to any frame of the station. -/
structure Restored (a a' : Adapter) (f : RecvFrame) : Prop where
  rxCaches : ∀ s, f.psta = some s → (a'.sta s).rxCaches = (a.sta s).rxCaches
  recvreorderCtrl : ∀ s, f.psta = some s → (a'.sta s).recvreorderCtrl = (a.sta s).recvreorderCtrl
  decache : ∀ s p, f.psta = some s → (recvDecache a' s p).1 = (recvDecache a s p).1

/-- An iteration of the drain that gives the frame up restores them. -/
def CopyKept (env : Env) (k : KernelCrypto) (g : GroupCrypto) (a : Adapter) (f : RecvFrame) :
    Prop :=
  ¬TakesUp a (drainFrame env k g a f).2 f → Restored a (drainFrame env k g a f).2 f

/-! ## Stages that take a frame up -/

/-- Behind `coop_post_decrypt`: the window of a QoS frame holds it, another frame hands something
on. -/
def postDecryptTakes (env : Env) (a : Adapter) (f : RecvFrame) : Bool :=
  if f.attrib.qos then windowHolds env a (coopWindow f) else mpduHandsOn env a f

/-- What the kernel makes of a frame. -/
def kernelDecrypts (k : KernelCrypto) (g : GroupCrypto) (a : Adapter) (f : RecvFrame) :
    Option RecvFrame :=
  if f.attrib.encrypt.isAead then
    (aeadTransform k g a (setKeyIndex f)).bind fun r =>
      coopAeadDecrypt k a (setKeyIndex f) r.1 r.2
  else none

/-- A frame in the clear, or one that the kernel decrypts, is taken up behind `coop_post_decrypt`;
any other behind post-handling. -/
def processTakes (env : Env) (k : KernelCrypto) (g : GroupCrypto) (a : Adapter) (f : RecvFrame) :
    Bool :=
  if f.isSealed then
    match kernelDecrypts k g a f with
    | some f' => postDecryptTakes env (consumePn a (setKeyIndex f)) f'
    | none => posthandleTakes env a (leftToSoftware k g a f)
  else postDecryptTakes env a f

/-- A frame is neither a duplicate nor late, and is taken up behind the two checks. -/
def drainTakes (env : Env) (k : KernelCrypto) (g : GroupCrypto) (a : Adapter) (f : RecvFrame) :
    Bool :=
  isNew a f && !drainLate a f && processTakes env k g (noted a f) f

/-- The frame has no station, it is a duplicate, or it is taken up. -/
def keepsCopy (env : Env) (k : KernelCrypto) (g : GroupCrypto) (a : Adapter) (f : RecvFrame) :
    Bool :=
  f.psta.isNone || !isNew a f || drainTakes env k g a f

theorem takesUp_of_id (a a' : Adapter) (h : f'.id = f.id) : TakesUp a a' f' ↔ TakesUp a a' f := by
  simp only [TakesUp, mpduIds, h]

theorem takesUp_of_before {a' : Adapter} (htrace : a₁.trace = a.trace)
    (hdefrag : ∀ s, (a₁.sta s).defragQ = (a.sta s).defragQ) :
    TakesUp a₁ a' f ↔ TakesUp a a' f := by
  simp only [TakesUp, mpduIds, Adapter.Delivers, htrace, hdefrag]

theorem takesUp_coopPostDecrypt (h : Owned a (f.id ::ₘ hand)) :
    TakesUp a (coopPostDecrypt env a f).2 f ↔ postDecryptTakes env a f := by
  have hself : f.id ∈ mpduIds a f := Or.inl rfl
  unfold coopPostDecrypt postDecryptTakes
  split
  · have hid : (coopWindow f).id ∈ mpduIds a f := by rwa [coopWindow_id]
    exact takesUp_recvIndicatepktReorder h (Adapter.Recedes.refl a) hid
  · exact takesUp_recvProcessMpdu h (Adapter.Recedes.refl a) hself

theorem consumePn_defragQ (a : Adapter) (f : RecvFrame) (s : StaId) :
    ((consumePn a f).sta s).defragQ = (a.sta s).defragQ :=
  congrFun (congrArg Observation.defragQ (observe_consumePn a f)) s

theorem consumePn_trace (a : Adapter) (f : RecvFrame) : (consumePn a f).trace = a.trace := by
  unfold consumePn
  split <;> rfl

theorem takesUp_drainProcess (h : Owned a (f.id ::ₘ hand)) :
    TakesUp a (drainProcess env k g a f).2.2 f ↔ processTakes env k g a f := by
  have hsealed : f.isSealed = true ↔ f.attrib.encrypt ≠ .noPrivacy ∧ !f.attrib.bdecrypted := by
    simp [RecvFrame.isSealed]
  unfold drainProcess processTakes
  by_cases hs : f.isSealed
  · rw [if_pos hs, if_pos (hsealed.mp hs)]
    unfold kernelDecrypts leftToSoftware
    by_cases haead : f.attrib.encrypt.isAead
    · simp only [haead, if_true]
      rw [← coopRxKernelDecrypt_fst]
      unfold drainAead
      rcases hker : coopRxKernelDecrypt k g a (setKeyIndex f) with ⟨o, r⟩
      cases o with
      | none =>
        have hid : (kernelLeft k g a (setKeyIndex f)).id = f.id := by
          obtain ⟨d, hd⟩ := kernelLeft_frame k g a (setKeyIndex f)
          rw [hd]
          rfl
        dsimp only
        rw [← takesUp_of_id _ _ hid]
        exact posthandle_takesUp_iff (hid ▸ h)
      | some f' =>
        have hid : f'.id = f.id := (coopRxKernelDecrypt_id hker).trans (setKeyIndex_id f)
        have howned : Owned (consumePn a (setKeyIndex f)) (f'.id ::ₘ hand) := by
          rw [hid]
          exact (consumePn_keeps a _).moves.owned h
        dsimp only
        rw [← takesUp_of_before (consumePn_trace a (setKeyIndex f))
          (consumePn_defragQ a (setKeyIndex f)), ← takesUp_of_id _ _ hid]
        exact takesUp_coopPostDecrypt howned
    · simp only [haead, Bool.false_eq_true, if_false]
      exact posthandle_takesUp_iff h
  · rw [if_neg hs, if_neg (by rwa [← hsealed])]
    exact takesUp_coopPostDecrypt h

/-! ## The sequence control value -/

theorem prxseq_setPrxseq (p : StaInfo) (attrib : RxPktAttrib) (t : Tid) :
    (p.setPrxseq attrib t).prxseq attrib t = attrib.seqCtrl := by
  unfold StaInfo.setPrxseq StaInfo.prxseq
  rcases attrib.qos <;> rcases attrib.ra.isMcast <;> simp

theorem noted_defragQ (a : Adapter) (f : RecvFrame) (s : StaId) :
    ((noted a f).sta s).defragQ = (a.sta s).defragQ := by
  unfold noted
  split
  · rfl
  · next r _ =>
    by_cases hs : s = r
    · rw [hs, setSta_sta]
      unfold StaInfo.setPrxseq
      split <;> rfl
    · rw [setSta_sta_of_ne _ _ hs]

theorem noted_trace (a : Adapter) (f : RecvFrame) : (noted a f).trace = a.trace := by
  unfold noted
  split <;> rfl

theorem consumePn_prxseq (a : Adapter) (f : RecvFrame) (s : StaId) (attrib : RxPktAttrib)
    (t : Tid) :
    ((consumePn a f).sta s).prxseq attrib t = (a.sta s).prxseq attrib t := by
  unfold consumePn
  split
  · rfl
  · next r _ =>
    by_cases hs : s = r
    · rw [hs, setSta_sta]
      rfl
    · rw [setSta_sta_of_ne _ _ hs]

/-- Nothing behind the duplicate check takes the value back. -/
theorem drainProcess_prxseq (a : Adapter) (f : RecvFrame) (s : StaId) (attrib : RxPktAttrib)
    (t : Tid) :
    ((drainProcess env k g a f).2.2.sta s).prxseq attrib t = (a.sta s).prxseq attrib t := by
  unfold drainProcess
  split
  · split
    · rcases hker : coopRxKernelDecrypt k g a (setKeyIndex f) with ⟨o, r⟩
      cases o with
      | none =>
        simp only [drainAead, hker]
        exact (@recvFuncPosthandle_sameCaches env a (kernelLeft k g a (setKeyIndex f))).prxseq s
          attrib t
      | some f' =>
        simp only [drainAead, hker]
        rw [(@coopPostDecrypt_sameCaches env (consumePn a (setKeyIndex f)) f').prxseq s attrib t]
        exact consumePn_prxseq a _ s attrib t
    · exact (@recvFuncPosthandle_sameCaches env a f).prxseq s attrib t
  · exact (@coopPostDecrypt_sameCaches env a f).prxseq s attrib t

theorem drainFrame_prxseq (hpsta : f.psta = some s) (hnew : isNew a f) :
    ((drainFrame env k g a f).2.sta s).prxseq f.attrib (Tid.clamp f.attrib.priority) =
      f.attrib.seqCtrl := by
  have hclaim : ((noted a f).sta s).prxseq f.attrib (Tid.clamp f.attrib.priority) =
      f.attrib.seqCtrl := by
    simp [noted, hpsta, prxseq_setPrxseq]
  rw [drainFrame_eq, if_neg (by simp [hnew])]
  split
  · exact hclaim
  · exact (drainProcess_prxseq (noted a f) f s _ _).trans hclaim

theorem not_restored_of_claimed (hpsta : f.psta = some s) (hnew : isNew a f) :
    ¬Restored a (drainFrame env k g a f).2 f := by
  intro hr
  have hclaim := @drainFrame_prxseq env k g a f s hpsta hnew
  have hne : f.attrib.seqCtrl ≠ (a.sta s).prxseq f.attrib (Tid.clamp f.attrib.priority) := by
    simpa [isNew, hpsta] using hnew
  exact hne (hclaim.symm.trans (prxseq_of_rxCaches (hr.rxCaches s hpsta) _ _))

theorem restored_of_duplicate (h : Owned a (f.id ::ₘ hand)) :
    Restored a (rtwFreeRecvframe a f.id) f := by
  have hcaches := rtwFreeRecvframe_sameCaches a f.id
  refine ⟨fun s _ => hcaches s, fun s _ => funext fun t => ?_,
    fun s p _ => recvDecache_of_rxCaches (hcaches s) p⟩
  have hqueue : ((a.sta s).recvreorderCtrl t).pendingRecvframeQueue.filter (·.id ≠ f.id) =
      ((a.sta s).recvreorderCtrl t).pendingRecvframeQueue := by
    refine List.filter_eq_self.mpr fun x hx => ?_
    have hmem : x.id ∈ idsOf (a.reorder (s, t)).pendingRecvframeQueue := List.mem_map_of_mem hx
    have hne : x.id ≠ f.id := fun hid =>
      h.notMem (Multiset.mem_of_le (window_le_census a (s, t)) (hid ▸ hmem))
    simpa using hne
  have hfree : ((rtwFreeRecvframe a f.id).sta s).recvreorderCtrl t =
      { (a.sta s).recvreorderCtrl t with
        pendingRecvframeQueue :=
          ((a.sta s).recvreorderCtrl t).pendingRecvframeQueue.filter (·.id ≠ f.id) } := rfl
  rw [hfree, hqueue]

theorem takesUp_drainFrame (h : Owned a (f.id ::ₘ hand)) :
    TakesUp a (drainFrame env k g a f).2 f ↔ drainTakes env k g a f := by
  have howned := (noted_keeps a f).moves.owned h
  unfold drainTakes
  rw [drainFrame_eq]
  cases hnew : isNew a f with
  | false =>
    refine iff_of_false ?_ (by simp)
    exact not_takesUp_of_recedes h (rtwFreeRecvframe_recedes a f.id)
  | true =>
    simp only [Bool.not_true, Bool.false_eq_true, if_false, Bool.true_and]
    rw [← takesUp_of_before (noted_trace a f) (noted_defragQ a f)]
    cases hlate : drainLate a f with
    | true =>
      refine iff_of_false ?_ (by simp)
      exact not_takesUp_of_recedes howned (rtwFreeRecvframe_recedes (noted a f) f.id)
    | false => simpa using takesUp_drainProcess howned

/-- **An iteration keeps the primary's own copy exactly when it notes nothing, or the frame passes
every check behind.** -/
theorem copyKept_iff (h : Owned a (f.id ::ₘ hand)) :
    CopyKept env k g a f ↔ keepsCopy env k g a f := by
  unfold CopyKept keepsCopy
  rw [takesUp_drainFrame h]
  cases hpsta : f.psta with
  | none =>
    refine iff_of_true (fun _ => ⟨?_, ?_, ?_⟩) (by simp)
    all_goals simp [hpsta]
  | some s =>
    cases hnew : isNew a f with
    | true =>
      simp only [Option.isNone_some, Bool.not_true, Bool.or_self, Bool.false_or]
      refine ⟨fun hkept => ?_, fun htakes hno => absurd htakes hno⟩
      by_contra hno
      exact not_restored_of_claimed hpsta hnew (hkept hno)
    | false =>
      refine iff_of_true (fun _ => ?_) (by simp)
      rw [drainFrame_eq, if_pos (by simp [hnew])]
      exact restored_of_duplicate h

theorem noted_pmfStation_owned : Owned (noted pmfStation ccmpFrame) (ccmpFrame.id ::ₘ 0) :=
  (noted_keeps pmfStation ccmpFrame).moves.owned pmfStation_owned

/-- A frame that the kernel decrypts and that has no QoS is delivered; its second copy is dropped,
and notes nothing. -/
theorem copyKept_delivered :
    CopyKept plainEnv plainKernel keyedGroup pmfStation ccmpFrame ∧
      drainTakes plainEnv plainKernel keyedGroup (noted pmfStation ccmpFrame) ccmpFrame = false ∧
      CopyKept plainEnv plainKernel keyedGroup (noted pmfStation ccmpFrame) ccmpFrame :=
  have howned : Owned pmfStation (ccmpFrame.id ::ₘ 0) := pmfStation_owned
  ⟨(copyKept_iff howned).mpr (by decide +kernel), by decide +kernel,
    (copyKept_iff noted_pmfStation_owned).mpr (by decide +kernel)⟩

/-- Nobody can decrypt the frame, and the genuine frame with its number is taken for a duplicate. -/
theorem not_copyKept :
    ¬∀ (env : Env) (k : KernelCrypto) (g : GroupCrypto) (a : Adapter) (f : RecvFrame)
      (hand : Multiset ℕ), Owned a (f.id ::ₘ hand) → CopyKept env k g a f := by
  intro h
  have hkept := h .wrongKey noKernel keyedGroup pmfStation ccmpFrame 0 pmfStation_owned
  have hno : ¬TakesUp pmfStation
      (drainFrame .wrongKey noKernel keyedGroup pmfStation ccmpFrame).2 ccmpFrame := by
    have howned : Owned pmfStation (ccmpFrame.id ::ₘ 0) := pmfStation_owned
    rw [takesUp_drainFrame howned]
    decide +kernel
  have hcopy := (hkept hno).decache 0 ccmpFrame.attrib rfl
  revert hcopy
  decide +kernel

end Rtl88x2eu.Coop
