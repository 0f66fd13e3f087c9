import Rtl88x2eu.Coop.Drain
import Rtl88x2eu.Recv.Delivery

/-!
# Conservation of drained frames

The drain calls `recv_indicatepkt_reorder` itself and looks at no return code: a frame that the
window does not take (it is disabled, or refuses the frame) is neither processed nor freed, and
its descriptor is lost to the primary. On the software path the drain shares the fault of
`recv_func_posthandle` with refused defragmented frames.

## Main definitions

* `isNew`, `noted`: the duplicate check
* `skipsPosthandle`, `leftToSoftware`: what goes by post-handling, and what it gets
* `drainFault`, `Drained`

## Main results

* `drainFrame_drained_iff`: an iteration conserves its frame exactly when it meets no fault
* `drainFrame_not_drained`: a QoS frame with reordering off
-/

namespace Rtl88x2eu.Coop

variable {env : Env} {k : KernelCrypto} {g : GroupCrypto} {a a' : Adapter} {hand : Multiset ℕ}
  {f f' : RecvFrame} {pending : List RecvFrame}

theorem consumePn_keeps (a : Adapter) (f : RecvFrame) : a.Keeps (consumePn a f) := by
  unfold consumePn
  split
  · exact Adapter.Keeps.refl a
  · exact setSta_keeps rfl

@[simp] theorem coopWindow_id (f : RecvFrame) : (coopWindow f).id = f.id := by
  unfold coopWindow
  split <;> rfl

@[simp] theorem setKeyIndex_id (f : RecvFrame) : (setKeyIndex f).id = f.id := rfl

theorem coopRxKernelDecrypt_frame {r : GroupCrypto}
    (h : coopRxKernelDecrypt k g a f = (some f', r)) :
    ∃ d, f' = ({ f with rxData := d } : RecvFrame).setBdecrypted := by
  have haead : ∀ t key, coopAeadDecrypt k a f t key = some f' →
      ∃ d, f' = ({ f with rxData := d } : RecvFrame).setBdecrypted := by
    intro t key h
    unfold coopAeadDecrypt at h
    dsimp only at h
    split_ifs at h
    obtain ⟨plain, -, rfl⟩ := Option.map_eq_some_iff.mp h
    exact ⟨_, rfl⟩
  unfold coopRxKernelDecrypt at h
  split at h
  · split_ifs at h
    · simp at h
    split at h
    · simp at h
    · dsimp only at h
      split_ifs at h
      · simp at h
      · rw [Prod.mk.injEq] at h
        obtain ⟨key, -, hkey⟩ := Option.bind_eq_some_iff.mp h.1
        exact haead _ key hkey
  · simp at h

theorem coopRxKernelDecrypt_id {r : GroupCrypto}
    (h : coopRxKernelDecrypt k g a f = (some f', r)) : f'.id = f.id := by
  obtain ⟨d, rfl⟩ := coopRxKernelDecrypt_frame h
  rfl

/-! ## What the drain asks of a frame -/

/-- The cache of the frame's station has another sequence control value. -/
def isNew (a : Adapter) (f : RecvFrame) : Bool :=
  f.psta.all fun s => f.attrib.seqCtrl ≠ (a.sta s).prxseq f.attrib (Tid.clamp f.attrib.priority)

/-- The primary with the sequence control value of a frame in the cache. -/
def noted (a : Adapter) (f : RecvFrame) : Adapter :=
  match f.psta with
  | none => a
  | some s => a.setSta s ((a.sta s).setPrxseq f.attrib (Tid.clamp f.attrib.priority))

/-- The kernel verifies a frame. -/
def kernelOpens (k : KernelCrypto) (g : GroupCrypto) (a : Adapter) (f : RecvFrame) : Bool :=
  (aeadTransform k g a f).any fun r => (coopAeadDecrypt k a f r.1 r.2).isSome

/-- A frame goes by `recv_func_posthandle`: it needs no decryption, or the kernel decrypts it. -/
def skipsPosthandle (k : KernelCrypto) (g : GroupCrypto) (a : Adapter) (f : RecvFrame) : Bool :=
  !f.isSealed || f.attrib.encrypt.isAead && kernelOpens k g a (setKeyIndex f)

/-- The frame that `recv_func_posthandle` gets. -/
def leftToSoftware (k : KernelCrypto) (g : GroupCrypto) (a : Adapter) (f : RecvFrame) : RecvFrame :=
  if f.attrib.encrypt.isAead then kernelLeft k g a (setKeyIndex f) else f

/-- A QoS frame goes by `recv_func_posthandle` while its window is off or refuses it; or it is left
to the software, as the last fragment of an MPDU that the window refuses. -/
def processFault (crypto : Crypto) (k : KernelCrypto) (g : GroupCrypto) (a : Adapter)
    (f : RecvFrame) : Bool :=
  if skipsPosthandle k g a f then f.attrib.qos && !windowTakes a (coopWindow f)
  else refusedDefrag crypto a (leftToSoftware k g a f)

/-- A frame that is neither a duplicate nor late, and has no way through the drain. -/
def drainFault (crypto : Crypto) (k : KernelCrypto) (g : GroupCrypto) (a : Adapter)
    (f : RecvFrame) : Bool :=
  isNew a f && !drainLate a f && processFault crypto k g (noted a f) f

theorem drainDecache_eq (a : Adapter) (f : RecvFrame) :
    drainDecache a f = if isNew a f then (true, noted a f) else (false, a) := by
  unfold drainDecache isNew noted
  cases f.psta with
  | none => rfl
  | some s =>
    by_cases hdup : f.attrib.seqCtrl = (a.sta s).prxseq f.attrib (Tid.clamp f.attrib.priority)
    · simp [hdup]
    · simp [hdup]

theorem reorder_noted (a : Adapter) (f : RecvFrame) (p : StaId × Tid) :
    (noted a f).reorder p = a.reorder p := by
  unfold noted
  split
  · rfl
  · next s _ =>
    by_cases hp : p.1 = s
    · simp only [Adapter.reorder, hp, setSta_sta]
      unfold StaInfo.setPrxseq
      split <;> rfl
    · simp only [Adapter.reorder, setSta_sta_of_ne _ _ hp]

theorem drainLate_noted (a : Adapter) (f : RecvFrame) :
    drainLate (noted a f) f = drainLate a f := by
  unfold drainLate
  simp only [reorder_noted]

theorem coopRxKernelDecrypt_fst (k : KernelCrypto) (g : GroupCrypto) (a : Adapter) (f : RecvFrame) :
    (coopRxKernelDecrypt k g a f).1 =
      (aeadTransform k g a f).bind fun r => coopAeadDecrypt k a f r.1 r.2 := by
  unfold coopRxKernelDecrypt aeadTransform
  split
  · next s t _ _ =>
    split
    · rfl
    cases hkey : coopKey a s f.attrib with
    | none => rfl
    | some key =>
      simp only [Option.bind_some]
      cases hset : (g.setKey k t key).1 with
      | false => simp
      | true => cases hjoin : ((g.setKey k t key).2.tfm t).join <;> simp
  · rfl

theorem coopRxKernelDecrypt_isSome (k : KernelCrypto) (g : GroupCrypto) (a : Adapter)
    (f : RecvFrame) : (coopRxKernelDecrypt k g a f).1.isSome = kernelOpens k g a f := by
  rw [coopRxKernelDecrypt_fst, kernelOpens]
  cases aeadTransform k g a f <;> rfl

theorem kernelLeft_frame (k : KernelCrypto) (g : GroupCrypto) (a : Adapter) (f : RecvFrame) :
    ∃ d, kernelLeft k g a f = { f with rxData := d } := by
  unfold kernelLeft
  split
  · exact ⟨f.rxData, rfl⟩
  · split
    · exact ⟨f.rxData, rfl⟩
    · exact ⟨_, rfl⟩

theorem leftToSoftware_id (k : KernelCrypto) (g : GroupCrypto) (a : Adapter) (f : RecvFrame) :
    (leftToSoftware k g a f).id = f.id := by
  unfold leftToSoftware
  split
  · obtain ⟨d, hd⟩ := kernelLeft_frame k g a (setKeyIndex f)
    rw [hd]
    rfl
  · rfl

/-- The two ways of a frame that is no duplicate. -/
theorem drainProcess_cases (env : Env) (k : KernelCrypto) (g : GroupCrypto) (a : Adapter)
    (f : RecvFrame) :
    (skipsPosthandle k g a f ∧ ∃ a₁ f₁, (a₁ = a ∨ a₁ = consumePn a (setKeyIndex f)) ∧
        (f₁ = f ∨ ∃ d i, f₁ = f.decrypted d i) ∧
        (drainProcess env k g a f).2.2 = (coopPostDecrypt env a₁ f₁).2) ∨
      (skipsPosthandle k g a f = false ∧ (drainProcess env k g a f).2.2 =
        (recvFuncPosthandle env a (leftToSoftware k g a f)).2) := by
  unfold drainProcess skipsPosthandle leftToSoftware RecvFrame.isSealed
  by_cases hsealed : f.attrib.encrypt ≠ .noPrivacy ∧ !f.attrib.bdecrypted
  · rw [if_pos hsealed]
    by_cases haead : f.attrib.encrypt.isAead
    · rw [if_pos haead]
      have hopens := coopRxKernelDecrypt_isSome k g a (setKeyIndex f)
      unfold drainAead
      rcases hker : coopRxKernelDecrypt k g a (setKeyIndex f) with ⟨o, r⟩
      rw [hker] at hopens
      cases o with
      | some f' =>
        obtain ⟨d, rfl⟩ := coopRxKernelDecrypt_frame hker
        exact Or.inl ⟨by simp [haead, ← hopens], _, _, Or.inr rfl, Or.inr ⟨d, _, rfl⟩, rfl⟩
      | none =>
        refine Or.inr ⟨?_, by rw [if_pos haead]⟩
        simp only [Option.isSome_none] at hopens
        simp [hsealed.1, hsealed.2, ← hopens]
    · rw [if_neg haead]
      refine Or.inr ⟨?_, by rw [if_neg haead]⟩
      simp [hsealed.1, hsealed.2, haead]
  · rw [if_neg hsealed]
    refine Or.inl ⟨?_, a, f, Or.inl rfl, Or.inl rfl, rfl⟩
    have hclear : (f.attrib.encrypt ≠ .noPrivacy && !f.attrib.bdecrypted) = false := by
      simpa using hsealed
    simp only [hclear, Bool.not_false, Bool.true_or]

theorem reorder_consumePn (a : Adapter) (f : RecvFrame) (p : StaId × Tid) :
    (consumePn a f).reorder p = a.reorder p := by
  unfold consumePn
  split
  · rfl
  · next s _ =>
    by_cases hp : p.1 = s
    · simp [Adapter.reorder, hp]
    · simp only [Adapter.reorder, setSta_sta_of_ne _ _ hp]

theorem windowTakes_decrypted (a : Adapter) (f : RecvFrame) (d : Bytes) (i : Fin 4) :
    windowTakes a (coopWindow (f.decrypted d i)) = windowTakes a (coopWindow f) := by
  unfold coopWindow
  rw [decrypted_psta]
  split <;> rfl

theorem coopPostDecrypt_moves (h : Owned a (f.id ::ₘ hand))
    (hf : (f.attrib.qos && !windowTakes a (coopWindow f)) = false) :
    Moves a (f.id ::ₘ hand) (coopPostDecrypt env a f).2 hand := by
  unfold coopPostDecrypt
  split
  · next hqos =>
    have htakes : windowTakes a (coopWindow f) := by simpa [hqos] using hf
    have hret := (recvIndicatepktReorder_rxHandled_iff env a (coopWindow f)).mpr htakes
    have hmoves := recvIndicatepktReorder_moves env (f := coopWindow f) (a := a) (by simpa using h)
    rw [reorderHand, if_pos hret, zero_add, coopWindow_id] at hmoves
    exact hmoves
  · exact recvProcessMpdu_moves env h

/-- A frame that the window does not take is in nobody's hands. -/
theorem coopPostDecrypt_loses (hf : f.attrib.qos && !windowTakes a (coopWindow f)) :
    a.Keeps (coopPostDecrypt env a f).2 := by
  simp only [Bool.and_eq_true, Bool.not_eq_true'] at hf
  unfold coopPostDecrypt
  rw [if_pos hf.1]
  refine recvIndicatepktReorder_keeps env fun hret => ?_
  rw [recvIndicatepktReorder_rxHandled_iff] at hret
  simp [hf.2] at hret

theorem coopPostDecrypt_handsOnce (h : Owned a (f.id ::ₘ hand)) :
    a.HandsOnce (coopPostDecrypt env a f).2 := by
  unfold coopPostDecrypt
  split
  · exact @recvIndicatepktReorder_handsOnce env a (coopWindow f) hand (by simpa using h)
  · exact recvProcessMpdu_handsOnce env a f

/-! ## One iteration -/

/-- The descriptor of a frame ends in one place, as those of all others, every descriptor on the
free list counts once, and what went to the network stack went there once and is free. -/
structure Drained (a : Adapter) (f : RecvFrame) (pending : List RecvFrame) (a' : Adapter) :
    Prop where
  census : a'.census = f.id ::ₘ a.census
  nodup : (a'.census + idsOf pending).Nodup
  freeRecvframeCnt : a'.freeRecvframeCnt = a'.freeRecvQueue.length
  handsOnce : a.HandsOnce a'

/-- The tail behind `coop_post_decrypt` on what a frame has become. -/
theorem tail_of_skips {a₁ : Adapter} {f₁ : RecvFrame} (h : Owned a (f.id ::ₘ hand))
    (ha : a₁ = a ∨ a₁ = consumePn a (setKeyIndex f)) (hf : f₁ = f ∨ ∃ d i, f₁ = f.decrypted d i) :
    a.Keeps a₁ ∧ f₁.id = f.id ∧ Owned a₁ (f₁.id ::ₘ hand) ∧ a₁.trace = a.trace ∧
      (f₁.attrib.qos && !windowTakes a₁ (coopWindow f₁)) =
        (f.attrib.qos && !windowTakes a (coopWindow f)) := by
  have hkeeps : a.Keeps a₁ := by
    obtain rfl | rfl := ha
    · exact Adapter.Keeps.refl _
    · exact consumePn_keeps a _
  have htrace : a₁.trace = a.trace := by
    obtain rfl | rfl := ha
    · rfl
    · unfold consumePn
      split <;> rfl
  have hreorder : ∀ p, a₁.reorder p = a.reorder p := by
    obtain rfl | rfl := ha
    · exact fun _ => rfl
    · exact reorder_consumePn a _
  have hwindow := (windowTakes_congr hreorder (coopWindow f₁)).1
  obtain rfl | ⟨d, i, rfl⟩ := hf
  · exact ⟨hkeeps, rfl, hkeeps.moves.owned h, htrace, by rw [hwindow]⟩
  · refine ⟨hkeeps, rfl, hkeeps.moves.owned h, htrace, ?_⟩
    rw [hwindow, windowTakes_decrypted]
    rfl

theorem drainProcess_moves (h : Owned a (f.id ::ₘ hand))
    (hf : processFault env.crypto k g a f = false) :
    Moves a (f.id ::ₘ hand) (drainProcess env k g a f).2.2 hand := by
  unfold processFault at hf
  obtain ⟨hskips, a₁, f₁, ha₁, hf₁, heq⟩ | ⟨hskips, heq⟩ := drainProcess_cases env k g a f
  · obtain ⟨hkeeps, hid, howned, -, hwindow⟩ := tail_of_skips h ha₁ hf₁
    rw [if_pos hskips, ← hwindow] at hf
    have hmoves : Moves a (f.id ::ₘ hand) a₁ (f₁.id ::ₘ hand) := by
      rw [hid]
      exact hkeeps.moves
    rw [heq]
    exact hmoves.trans (coopPostDecrypt_moves howned hf)
  · rw [if_neg (by simp [hskips])] at hf
    rw [heq, ← leftToSoftware_id k g a f]
    rw [← leftToSoftware_id k g a f] at h
    exact recvFuncPosthandle_moves h hf

theorem drainProcess_fault (h : Owned a (f.id ::ₘ hand)) (hf : processFault env.crypto k g a f) :
    a.Keeps (drainProcess env k g a f).2.2 ∨
      a.surplus < (drainProcess env k g a f).2.2.surplus := by
  unfold processFault at hf
  obtain ⟨hskips, a₁, f₁, ha₁, hf₁, heq⟩ | ⟨hskips, heq⟩ := drainProcess_cases env k g a f
  · obtain ⟨hkeeps, -, -, -, hwindow⟩ := tail_of_skips h ha₁ hf₁
    rw [if_pos hskips, ← hwindow] at hf
    rw [heq]
    exact Or.inl (hkeeps.trans (coopPostDecrypt_loses hf))
  · rw [if_neg (by simp [hskips])] at hf
    rw [heq]
    rw [← leftToSoftware_id k g a f] at h
    exact Or.inr (surplus_lt_recvFuncPosthandle h hf)

theorem drainProcess_handsOnce (h : Owned a (f.id ::ₘ hand)) :
    a.HandsOnce (drainProcess env k g a f).2.2 := by
  obtain ⟨hskips, a₁, f₁, ha₁, hf₁, heq⟩ | ⟨hskips, heq⟩ := drainProcess_cases env k g a f
  · obtain ⟨-, -, howned, htrace, -⟩ := tail_of_skips h ha₁ hf₁
    rw [heq]
    exact (coopPostDecrypt_handsOnce howned).before ⟨[], by simp [htrace]⟩
  · rw [heq]
    rw [← leftToSoftware_id k g a f] at h
    exact recvFuncPosthandle_handsOnce h

theorem noted_keeps (a : Adapter) (f : RecvFrame) : a.Keeps (noted a f) := by
  unfold noted
  split
  · exact Adapter.Keeps.refl a
  · exact setSta_keeps (setPrxseq_held _ _ _)

theorem drainFrame_eq (env : Env) (k : KernelCrypto) (g : GroupCrypto) (a : Adapter)
    (f : RecvFrame) :
    (drainFrame env k g a f).2 =
      if !isNew a f then rtwFreeRecvframe a f.id
      else if drainLate a f then rtwFreeRecvframe (noted a f) f.id
      else (drainProcess env k g (noted a f) f).2.2 := by
  unfold drainFrame
  rw [drainDecache_eq]
  cases hnew : isNew a f with
  | false => rfl
  | true =>
    simp only [if_true, drainLate_noted]
    split <;> rfl

theorem drainFrame_moves (h : Owned a (f.id ::ₘ hand))
    (hf : drainFault env.crypto k g a f = false) :
    Moves a (f.id ::ₘ hand) (drainFrame env k g a f).2 hand ∧
      a.HandsOnce (drainFrame env k g a f).2 := by
  have hnoted : Moves a (f.id ::ₘ hand) (noted a f) (f.id ::ₘ hand) := (noted_keeps a f).moves
  have htrace : ∃ qs : List RecvFrame, (noted a f).trace = a.trace ++ qs.map .defrag := by
    refine ⟨[], ?_⟩
    unfold noted
    split <;> simp [Adapter.setSta]
  have howned := hnoted.owned h
  unfold drainFault at hf
  rw [drainFrame_eq]
  cases hnew : isNew a f with
  | false =>
    exact ⟨rtwFreeRecvframe_moves h, Adapter.HandsOnce.of_trace ⟨[], (List.append_nil _).symm⟩⟩
  | true =>
    simp only [Bool.not_true, Bool.false_eq_true, if_false]
    split
    · exact ⟨hnoted.trans (rtwFreeRecvframe_moves howned), Adapter.HandsOnce.of_trace htrace⟩
    · next hlate =>
      have hprocess : processFault env.crypto k g (noted a f) f = false := by
        simpa [hnew, hlate] using hf
      exact ⟨hnoted.trans (drainProcess_moves howned hprocess),
        (drainProcess_handsOnce howned).before htrace⟩

theorem not_drained_of_fault (h : Owned a (f.id ::ₘ hand)) (hf : drainFault env.crypto k g a f) :
    ¬Drained a f pending (drainFrame env k g a f).2 := by
  intro hdrained
  simp only [drainFault, Bool.and_eq_true, Bool.not_eq_true'] at hf
  obtain ⟨⟨hnew, hlate⟩, hfault⟩ := hf
  have hkeeps := noted_keeps a f
  rw [drainFrame_eq, if_neg (by simp [hnew]), if_neg (by simp [hlate])] at hdrained
  obtain hlost | hfreed := @drainProcess_fault env k g _ hand f (hkeeps.moves.owned h) hfault
  · have hcensus := (hkeeps.trans hlost).census
    rw [hdrained.census] at hcensus
    have hmem : f.id ∈ a.census := hcensus ▸ Multiset.mem_cons_self f.id a.census
    exact h.notMem hmem
  · rw [hkeeps.surplus, show a.surplus = 0 from h.surplus, Adapter.surplus,
      hdrained.freeRecvframeCnt, sub_self] at hfreed
    exact lt_irrefl _ hfreed

/-- **An iteration of the drain conserves its frame exactly when the frame has a way through**: the
window takes a QoS frame that goes by post-handling, and post-handling meets no refusing window. -/
theorem drainFrame_drained_iff (h : Owned a (idsOf (f :: pending))) :
    Drained a f pending (drainFrame env k g a f).2 ↔ drainFault env.crypto k g a f = false := by
  rw [idsOf_cons] at h
  refine ⟨fun hdrained => ?_, fun hf => ?_⟩
  · by_contra hfault
    exact not_drained_of_fault h (by simpa using hfault) hdrained
  · obtain ⟨hmoves, honce⟩ := drainFrame_moves h hf
    have howned := hmoves.owned h
    refine ⟨?_, howned.nodup, sub_eq_zero.mp howned.surplus, honce⟩
    have hcensus := hmoves.census
    rw [Multiset.add_cons, ← Multiset.cons_add] at hcensus
    exact add_right_cancel hcensus

def clearFrame (qos : Bool) : RecvFrame where
  id := 0
  pkt := some 0
  attrib := { seqNum := 7, qos, toFrDs := 2, ra := staAddr, ta := apAddr, dst := staAddr,
              src := apAddr, bssid := apAddr }
  rxData := [0x08, 0x02, 0, 0] ++ staAddr.toBytes ++ apAddr.toBytes ++ apAddr.toBytes ++
    [0x70, 0] ++ [0xaa, 0xaa, 3, 0, 0, 0, 8, 0] ++ List.replicate 20 0
  psta := some 0
  preorderCtrl := if qos then some (0, 0) else none

def noKernel : KernelCrypto := { cryptoAeadDecrypt := fun _ _ _ _ _ => none }

/-- A frame without QoS is handed on, and its descriptor is free. -/
theorem drainFrame_drained_clear :
    Drained pmfStation (clearFrame false) []
      (drainFrame .wrongKey noKernel {} pmfStation (clearFrame false)).2 :=
  (drainFrame_drained_iff pmfStation_owned).mpr (by decide +kernel)

/-- A QoS frame of a TID without a block ack session is lost. -/
theorem drainFrame_not_drained :
    ¬∀ (env : Env) (k : KernelCrypto) (g : GroupCrypto) (a : Adapter) (f : RecvFrame)
      (pending : List RecvFrame), Owned a (idsOf (f :: pending)) →
        Drained a f pending (drainFrame env k g a f).2 := by
  intro h
  have hfault : drainFault Crypto.wrongKey noKernel {} pmfStation (clearFrame true) := by
    decide +kernel
  have hdrained := h .wrongKey noKernel {} pmfStation (clearFrame true) [] pmfStation_owned
  exact @not_drained_of_fault .wrongKey noKernel {} pmfStation 0 (clearFrame true) []
    pmfStation_owned hfault hdrained

end Rtl88x2eu.Coop
