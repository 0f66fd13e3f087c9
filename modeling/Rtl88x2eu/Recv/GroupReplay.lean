import Rtl88x2eu.Lib.Transition
import Rtl88x2eu.Recv.Validate

/-!
# The replay window of the group keys

A station keeps the packet number of the last group-addressed frame under each key in `iv_seq`, and
`recv_bcast_pn_decache` compares the next one with it. A greater number should pass, and any number
when there is none yet, which is what 0 stands for. The code looks at bit 47 of the difference, so
that it takes a number for greater when it is up to `2 ^ 47` ahead, or more than that behind; and
the number 0 leaves the window as it was.

## Main definitions

* `World`, `step`: frames under a packet number, key installations, anything else
* `ReplayWindow`, `InWindow`

## Main results

* `validPnChk_iff`: what `VALID_PN_CHK` tells of two numbers
* `replayWindow_iff`: the window works in every state reached, exactly if frames come in the window
* `not_replayWindow`: a frame that is far ahead is refused
-/

namespace Rtl88x2eu.GroupReplay

theorem ivToPn_lt (enc : SecurityType) (iv : Bytes) : ivToPn enc iv < 2 ^ 48 := by
  have h0 := iv.le16_lt 0
  have h4 := iv.le16_lt 4
  have h6 := iv.le16_lt 6
  have hlow := (iv.u8 2).toNat_lt
  have hhigh := (iv.u8 0).toNat_lt
  unfold ivToPn
  dsimp only
  split_ifs <;> omega

/-- **What `VALID_PN_CHK` tells** of two numbers of 48 bits. -/
theorem validPnChk_iff {new old : ℕ} (hnew : new < 2 ^ 48) (hold : old < 2 ^ 48) :
    validPnChk new old ↔
      old = 0 ∨ (old < new ∧ new ≤ old + 2 ^ 47) ∨ new + 2 ^ 47 ≤ old := by
  unfold validPnChk
  rw [Bool.or_eq_true, decide_eq_true_eq, decide_eq_true_eq]
  apply or_congr_right
  omega

/-! ## Frames and installations -/

/-- How a frame was judged: the number in the window and that of the frame, the verdict, and the
number in the window behind it. -/
structure Verdict where
  keyId : Fin 4
  stored : ℕ
  pn : ℕ
  accepted : Bool
  storedAfter : ℕ
deriving DecidableEq, Repr

structure World where
  adapter : Adapter
  verdicts : List Verdict := []
  /-- The numbers that passed under a key since it was installed. -/
  accepted : Fin 4 → List ℕ := fun _ => []

inductive Event
  /-- A group-addressed frame under a packet number comes to `recv_bcast_pn_decache`. -/
  | frame (f : RecvFrame)
  | install (keyId : Fin 4) (seq : ℕ)
  /-- The rest of the driver leaves `iv_seq` alone. -/
  | other (a : Adapter)

def frameKey (f : RecvFrame) : Fin 4 := ivKeyIndex (f.rxData.drop f.attrib.hdrlen)

def framePn (f : RecvFrame) : ℕ := ivToPn f.attrib.encrypt (f.rxData.drop f.attrib.hdrlen)

def World.stored (w : World) (k : Fin 4) : ℕ := w.adapter.securitypriv.ivSeq k

def setIvSeq (a : Adapter) (k : Fin 4) (pn : ℕ) : Adapter :=
  { a with securitypriv :=
    { a.securitypriv with ivSeq := Function.update a.securitypriv.ivSeq k pn } }

def step (w : World) : Event → Option World
  | .frame f =>
    if f.attrib.ra.isMcast ∧ f.attrib.encrypt.hasPn then
      let r := recvBcastPnDecache w.adapter f
      let k := frameKey f
      some {
        adapter := r.2
        verdicts := w.verdicts ++
          [⟨k, w.stored k, framePn f, r.1, r.2.securitypriv.ivSeq k⟩]
        accepted :=
          if r.1 then Function.update w.accepted k (w.accepted k ++ [framePn f]) else w.accepted }
    else none
  | .install k seq =>
    -- packet numbers have 48 bits
    if seq < 2 ^ 48 then
      some { w with
        adapter := setIvSeq w.adapter k seq
        accepted := Function.update w.accepted k [] }
    else none
  | .other a =>
    if a.fwState.station ∧ ∀ k, a.securitypriv.ivSeq k = w.stored k then
      some { w with adapter := a }
    else none

/-- The frame was judged by the order of the numbers, and a frame that passed moves the window. -/
structure Verdict.Right (v : Verdict) : Prop where
  accepted : v.accepted ↔ v.stored = 0 ∨ v.stored < v.pn
  advances : v.accepted → v.stored < v.storedAfter

/-- **The replay window works**: every verdict is right, and the numbers that passed under a key
increase, so that none passed twice. -/
structure ReplayWindow (w : World) : Prop where
  right : ∀ v ∈ w.verdicts, v.Right
  increasing : ∀ k, (w.accepted k).Pairwise (· < ·)

/-- A number is less than half the number space ahead of another one or behind it, and the first one
is not 0. -/
def Near (old pn : ℕ) : Prop :=
  if old = 0 then pn ≠ 0 else pn ≤ old + 2 ^ 47 ∧ old < pn + 2 ^ 47

/-- **The condition**: a frame comes near the last one under its key. -/
def InWindow (w : World) : Event → Prop
  | .frame f => Near (w.stored (frameKey f)) (framePn f)
  | _ => True

section Frames

variable {w w' : World} {f : RecvFrame}

/-- `recv_bcast_pn_decache` of a station. -/
theorem recvBcastPnDecache_eq (hsta : w.adapter.fwState.station) (hpn : f.attrib.encrypt.hasPn) :
    recvBcastPnDecache w.adapter f =
      if validPnChk (framePn f) (w.stored (frameKey f)) then
        (true, setIvSeq w.adapter (frameKey f) (framePn f))
      else (false, w.adapter) := by
  unfold recvBcastPnDecache
  exact if_pos ⟨hpn, hsta⟩

structure FrameStep (w : World) (f : RecvFrame) (w' : World) : Prop where
  station : w'.adapter.fwState.station = w.adapter.fwState.station
  verdicts : w'.verdicts = w.verdicts ++
    [⟨frameKey f, w.stored (frameKey f), framePn f,
      validPnChk (framePn f) (w.stored (frameKey f)), w'.stored (frameKey f)⟩]
  stored : ∀ k, w'.stored k =
    if k = frameKey f ∧ validPnChk (framePn f) (w.stored (frameKey f)) then framePn f
    else w.stored k
  accepted : ∀ k, w'.accepted k =
    if k = frameKey f ∧ validPnChk (framePn f) (w.stored (frameKey f)) then
      w.accepted k ++ [framePn f]
    else w.accepted k

theorem frameStep_of_step (hsta : w.adapter.fwState.station)
    (h : step w (.frame f) = some w') : FrameStep w f w' := by
  unfold step at h
  dsimp only at h
  by_cases henabled : f.attrib.ra.isMcast ∧ f.attrib.encrypt.hasPn
  swap
  · rw [if_neg henabled] at h
    cases h
  rw [if_pos henabled, recvBcastPnDecache_eq hsta henabled.2] at h
  by_cases hvalid : validPnChk (framePn f) (w.stored (frameKey f))
  · rw [if_pos hvalid] at h
    dsimp only at h
    rw [if_pos rfl] at h
    obtain rfl := Option.some.inj h
    refine ⟨rfl, by rw [hvalid]; rfl, fun k => ?_, fun k => ?_⟩
    · by_cases hk : k = frameKey f
      · rw [if_pos ⟨hk, hvalid⟩, hk]
        exact Function.update_self _ _ _
      · rw [if_neg fun h => hk h.1]
        exact Function.update_of_ne hk _ _
    · by_cases hk : k = frameKey f
      · rw [if_pos ⟨hk, hvalid⟩, hk]
        exact Function.update_self _ _ _
      · rw [if_neg fun h => hk h.1]
        exact Function.update_of_ne hk _ _
  · rw [if_neg hvalid] at h
    dsimp only at h
    rw [if_neg Bool.false_ne_true] at h
    obtain rfl := Option.some.inj h
    have hfalse := Bool.eq_false_of_not_eq_true hvalid
    refine ⟨rfl, by rw [hfalse]; rfl, fun k => ?_, fun k => ?_⟩
    · rw [if_neg fun h => hvalid h.2]
      rfl
    · rw [if_neg fun h => hvalid h.2]

end Frames

/-- The numbers that passed under a key are not ahead of its window. -/
structure Inv (w : World) : Prop where
  window : ReplayWindow w
  station : w.adapter.fwState.station
  stored_lt : ∀ k, w.stored k < 2 ^ 48
  accepted_le : ∀ k, ∀ pn ∈ w.accepted k, pn ≤ w.stored k

section Runs

variable {w w' : World}

/-- **The verdict is right exactly if the frame comes in the window.** -/
theorem right_iff_inWindow {f : RecvFrame} (h : Inv w) (hstep : FrameStep w f w') :
    (Verdict.mk (frameKey f) (w.stored (frameKey f)) (framePn f)
      (validPnChk (framePn f) (w.stored (frameKey f))) (w'.stored (frameKey f))).Right ↔
      InWindow w (.frame f) := by
  have hnew : framePn f < 2 ^ 48 := ivToPn_lt _ _
  have hold := h.stored_lt (frameKey f)
  have hvalid := validPnChk_iff hnew hold
  have hafter := hstep.stored (frameKey f)
  simp only [true_and] at hafter
  unfold InWindow Near
  constructor
  · rintro ⟨haccepted, hadvances⟩
    dsimp only at haccepted hadvances ⊢
    rw [hvalid] at haccepted hadvances
    split_ifs with hzero
    · have hlt := hadvances (.inl hzero)
      rw [hafter, if_pos (hvalid.mpr (.inl hzero)), hzero] at hlt
      omega
    · omega
  · intro hwindow
    dsimp only at hwindow
    constructor
    · dsimp only
      rw [hvalid]
      split_ifs at hwindow with hzero <;> omega
    · intro haccepted
      dsimp only at haccepted ⊢
      rw [hafter, if_pos haccepted]
      rw [hvalid] at haccepted
      split_ifs at hwindow with hzero <;> omega

theorem Inv.frame {f : RecvFrame} (h : Inv w) (hok : InWindow w (.frame f))
    (hstep : FrameStep w f w') : Inv w' := by
  have hright := (right_iff_inWindow h hstep).mpr hok
  have hlt (hvalid : validPnChk (framePn f) (w.stored (frameKey f)) = true) :
      w.stored (frameKey f) < framePn f := by
    have hadvances := hright.advances hvalid
    have hafter := hstep.stored (frameKey f)
    rw [if_pos ⟨rfl, hvalid⟩] at hafter
    rwa [hafter] at hadvances
  refine ⟨⟨?_, fun k => ?_⟩, hstep.station.trans h.station, fun k => ?_, fun k pn hpn => ?_⟩
  · rw [hstep.verdicts]
    intro v hv
    rcases List.mem_append.mp hv with hv | hv
    · exact h.window.right v hv
    · rw [List.mem_singleton.mp hv]
      exact hright
  · rw [hstep.accepted k]
    split_ifs with hk
    · refine List.pairwise_append.mpr ⟨h.window.increasing k, List.pairwise_singleton _ _, ?_⟩
      intro pn hpn pn' hpn'
      rw [List.mem_singleton.mp hpn']
      have hle := h.accepted_le k pn hpn
      rw [hk.1] at hle
      exact hle.trans_lt (hlt hk.2)
    · exact h.window.increasing k
  · rw [hstep.stored k]
    split_ifs
    · exact ivToPn_lt _ _
    · exact h.stored_lt k
  · rw [hstep.accepted k] at hpn
    rw [hstep.stored k]
    split_ifs at hpn ⊢ with hk
    · rcases List.mem_append.mp hpn with hpn | hpn
      · have hle := h.accepted_le k pn hpn
        rw [hk.1] at hle
        exact hle.trans (hlt hk.2).le
      · exact (List.mem_singleton.mp hpn).le
    · exact h.accepted_le k pn hpn

theorem Inv.install {k : Fin 4} {seq : ℕ} (h : Inv w) (hstep : step w (.install k seq) = some w') :
    Inv w' := by
  unfold step at hstep
  dsimp only at hstep
  split_ifs at hstep with hseq
  obtain rfl := Option.some.inj hstep
  refine ⟨⟨h.window.right, fun k' => ?_⟩, h.station, fun k' => ?_, fun k' pn hpn => ?_⟩
  · by_cases hk : k' = k
    · subst hk
      simp
    · simpa [hk] using h.window.increasing k'
  · by_cases hk : k' = k
    · subst hk
      simpa [World.stored, setIvSeq] using hseq
    · simpa [World.stored, setIvSeq, hk] using h.stored_lt k'
  · by_cases hk : k' = k
    · subst hk
      simp at hpn
    · have hpn : pn ∈ w.accepted k' := by simpa [hk] using hpn
      simpa [World.stored, setIvSeq, hk] using h.accepted_le k' pn hpn

theorem Inv.other {a : Adapter} (h : Inv w) (hstep : step w (.other a) = some w') : Inv w' := by
  unfold step at hstep
  dsimp only at hstep
  split_ifs at hstep with henabled
  obtain rfl := Option.some.inj hstep
  refine ⟨⟨h.window.right, h.window.increasing⟩, henabled.1, fun k => ?_, fun k pn hpn => ?_⟩
  · exact (henabled.2 k).trans_lt (h.stored_lt k)
  · exact (h.accepted_le k pn hpn).trans (henabled.2 k).ge

/-- **One step**: the window still works exactly if the frame comes in it. -/
theorem Inv.step {e : Event} (h : Inv w) (hstep : step w e = some w') :
    (ReplayWindow w' ↔ InWindow w e) ∧ (InWindow w e → Inv w') := by
  cases e with
  | frame f =>
    have hframe := frameStep_of_step h.station hstep
    refine ⟨⟨fun hwindow => ?_, fun hok => (h.frame hok hframe).window⟩,
      fun hok => h.frame hok hframe⟩
    refine (right_iff_inWindow h hframe).mp (hwindow.right _ ?_)
    rw [hframe.verdicts]
    exact List.mem_append_right _ (List.mem_singleton_self _)
  | install k seq =>
    have hinv := h.install hstep
    exact ⟨iff_of_true hinv.window trivial, fun _ => hinv⟩
  | other a =>
    have hinv := h.other hstep
    exact ⟨iff_of_true hinv.window trivial, fun _ => hinv⟩

end Runs

open Transition

/-- **The window works in every state that a run reaches**, exactly if every frame comes in the
window. -/
theorem replayWindow_iff {a : Adapter} {es : List Event} {w : World} (hsta : a.fwState.station)
    (hseq : ∀ k, a.securitypriv.ivSeq k < 2 ^ 48) (hrun : run step { adapter := a } es = some w) :
    (∀ es' w', es' <+: es → run step { adapter := a } es' = some w' → ReplayWindow w') ↔
      Meets step InWindow { adapter := a } es := by
  have hinit : Inv { adapter := a } := ⟨⟨by simp, by simp⟩, hsta, hseq, by simp⟩
  exact forall_prefix_iff_meets (fun _ h => h.window) (fun _ _ _ h hstep => h.step hstep) hinit hrun

instance Near.decidable (old pn : ℕ) : Decidable (Near old pn) :=
  inferInstanceAs (Decidable (if old = 0 then pn ≠ 0 else pn ≤ old + 2 ^ 47 ∧ old < pn + 2 ^ 47))

instance InWindow.decidable (w : World) : ∀ e, Decidable (InWindow w e)
  | .frame f => Near.decidable (w.stored (frameKey f)) (framePn f)
  | .install _ _ => isTrue trivial
  | .other _ => isTrue trivial

def stationAdapter : Adapter := { fwState := { station := true } }

def groupFrame (iv : Bytes) : RecvFrame where
  id := 0
  rxData := List.replicate 24 0 ++ iv
  attrib := { ra := .bcast, hdrlen := 24, ivLen := 8, encrypt := .aes }

/-- Numbers 5 and 9 under key 1, and number 3 under key 2. -/
def inOrder : List Event :=
  [.install 1 4, .frame (groupFrame [5, 0, 0, 0x60, 0, 0, 0, 0]),
    .frame (groupFrame [3, 0, 0, 0xa0, 0, 0, 0, 0]),
    .frame (groupFrame [9, 0, 0, 0x60, 0, 0, 0, 0])]

theorem replayWindow_inOrder :
    ∃ w, run step { adapter := stationAdapter } inOrder = some w ∧ w.accepted 1 = [5, 9] ∧
      ∀ es' w', es' <+: inOrder → run step { adapter := stationAdapter } es' = some w' →
        ReplayWindow w' := by
  obtain ⟨w, hrun, haccepted⟩ : ∃ w,
      run step { adapter := stationAdapter } inOrder = some w ∧ w.accepted 1 = [5, 9] :=
    exists_run_of_any (by decide +kernel)
  exact ⟨w, hrun, haccepted, (replayWindow_iff rfl (by decide) hrun).mpr (by decide +kernel)⟩

/-- Number `2 ^ 47 + 2` behind number 1. -/
def farAhead : List Event :=
  [.frame (groupFrame [1, 0, 0, 0x60, 0, 0, 0, 0]),
    .frame (groupFrame [2, 0, 0, 0x60, 0, 0, 0, 0x80])]

/-- **A frame that is far ahead is refused.** -/
theorem not_replayWindow :
    ¬ ∀ (a : Adapter) (es : List Event) (w : World), a.fwState.station →
      (∀ k, a.securitypriv.ivSeq k < 2 ^ 48) → run step { adapter := a } es = some w →
      ReplayWindow w := by
  intro hclaim
  obtain ⟨w, hrun, hrefused⟩ : ∃ w,
      run step { adapter := stationAdapter } farAhead = some w ∧
        ∃ v ∈ w.verdicts, v.stored < v.pn ∧ v.accepted = false :=
    exists_run_of_any (by decide +kernel)
  obtain ⟨v, hv, hlt, hfalse⟩ := hrefused
  have hright := (hclaim _ _ w rfl (by decide) hrun).right v hv
  have haccepted := hright.accepted.mpr (.inr hlt)
  rw [hfalse] at haccepted
  exact Bool.false_ne_true haccepted

end Rtl88x2eu.GroupReplay
