import Rtl88x2eu.Lib.Transition
import Rtl88x2eu.Recv.Verdicts

/-!
# Conservation of received frames

`recv_func` accounts for the descriptor of every frame, but for three places. A frame put together
from fragments that the reorder window refuses is freed as its last fragment, which was freed
before, and the descriptor of its first fragment is lost. A management frame that fails in
`decryptor` or in `recvframe_chk_defrag` is freed there and in `recv_func_prehandle`. In the test
mode a frame that `mp_recv_frame` has freed or indicated is freed once more at its end.

## Main definitions

* `refusedDefrag`, `mgmtFreed`, `mpFreed`: the three places
* `recvStep`, `recvSteps`, `recvFault`, `Conserved`

## Main results

* `recvFunc_eq_run`: `recv_func` is the run of its steps
* `recvFunc_conserved_iff`: `recv_func` conserves descriptors exactly when it meets no fault
* `recvFunc_not_conserved`: a protected management frame under a wrong key
-/

namespace Rtl88x2eu

variable {env : Env} {a a' : Adapter} {hand : Multiset ℕ} {f g : RecvFrame} {id : ℕ} {s : StaId}

theorem mem_freeRecvQueue_of_mem (id' : ℕ) (h : id ∈ a.freeRecvQueue) :
    id ∈ (rtwFreeRecvframe a id').freeRecvQueue := by
  by_cases heq : id = id'
  · rw [heq]
    exact mem_freeRecvQueue_rtwFreeRecvframe a id'
  · simp [rtwFreeRecvframe, Adapter.listDelete, h, heq]

theorem mem_freeRecvQueue_queue_of_mem {q : List RecvFrame} (h : id ∈ a.freeRecvQueue) :
    id ∈ (rtwFreeRecvframeQueue a q).freeRecvQueue := by
  induction q generalizing a with
  | nil => exact h
  | cons g q ih => exact ih (mem_freeRecvQueue_of_mem g.id h)

theorem mem_freeRecvQueue_queue {q : List RecvFrame} (h : f ∈ q) :
    f.id ∈ (rtwFreeRecvframeQueue a q).freeRecvQueue := by
  induction q generalizing a with
  | nil => simp at h
  | cons g q ih =>
    obtain rfl | hq := List.mem_cons.mp h
    · have hfree := mem_freeRecvQueue_rtwFreeRecvframe a f.id
      exact mem_freeRecvQueue_queue_of_mem (a := rtwFreeRecvframe a f.id) hfree
    · exact ih hq

def queuesFragment (a : Adapter) (f : RecvFrame) : Bool :=
  f.attrib.mfrag && !f.attrib.ra.isMcast && (defragSta a f).isSome

/-- A frame that `recvframe_defrag` finds in the queue comes back, or it is freed. -/
theorem recvframeDefrag_fate (h : f ∈ (a.sta s).defragQ) :
    (∃ g, (recvframeDefrag a s).1 = some g ∧ g.id = f.id) ∨
      f.id ∈ (recvframeDefrag a s).2.freeRecvQueue := by
  unfold recvframeDefrag
  split
  · next hq => simp [hq] at h
  · next first rest hq =>
    rw [hq] at h
    extract_lets a₁ curPn
    split
    · next g hg =>
      have hid : g.id = first.id := by
        split at hg
        · exact defragLoop_id hg
        · simp at hg
      obtain rfl | hrest := List.mem_cons.mp h
      · exact Or.inl ⟨g, rfl, hid⟩
      · exact Or.inr (mem_freeRecvQueue_queue hrest)
    · obtain rfl | hrest := List.mem_cons.mp h
      · exact Or.inr (mem_freeRecvQueue_queue_of_mem (mem_freeRecvQueue_rtwFreeRecvframe a₁ f.id))
      · exact Or.inr (mem_freeRecvQueue_queue hrest)

theorem chkDefragQueue_fate (a : Adapter) (f : RecvFrame) (h : queuesFragment a f = false) :
    (∃ g, (chkDefragQueue a f).1 = some g ∧ g.id = f.id) ∨
      f.id ∈ (chkDefragQueue a f).2.freeRecvQueue := by
  unfold chkDefragQueue
  split
  · exact Or.inl ⟨f, rfl, rfl⟩
  split
  · exact Or.inr (mem_freeRecvQueue_rtwFreeRecvframe a f.id)
  split
  · exact Or.inr (mem_freeRecvQueue_rtwFreeRecvframe a f.id)
  · next _ hmcast _ s hsta =>
    have hmfrag : f.attrib.mfrag = false := by simpa [queuesFragment, hmcast, hsta] using h
    unfold queueDefrag
    rw [if_neg (by simpa [RecvFrame.setKeytrack] using hmfrag)]
    refine recvframeDefrag_fate (f := f.setKeytrack (a.sta s).keytrack) ?_
    simp [Adapter.queueFragment, Adapter.setDefragQ, Adapter.emit]

theorem recvframeChkDefrag_fate (crypto : Crypto) (a : Adapter) (f : RecvFrame)
    (h : queuesFragment a f = false) :
    (∃ g, (recvframeChkDefrag crypto a f).1 = some g ∧ g.id = f.id) ∨
      f.id ∈ (recvframeChkDefrag crypto a f).2.freeRecvQueue := by
  have hqueue := chkDefragQueue_fate a f h
  unfold recvframeChkDefrag
  split
  · next heq =>
    rw [heq] at hqueue
    simpa using hqueue
  · next g a₁ heq =>
    rw [heq] at hqueue
    split
    · have hid := recvframeChkmic_id crypto a₁ g
      have hkeeps := recvframeChkmic_keeps crypto a₁ g
      split
      · next g' a₂ heq' =>
        rw [heq'] at hid hkeeps
        obtain ⟨g₁, hg₁, hf⟩ | hfree := hqueue
        · obtain rfl := Option.some.inj hg₁
          exact Or.inl ⟨g', rfl, hid.trans hf⟩
        · exact Or.inr (hkeeps.freeRecvQueue ▸ hfree)
      · next g' a₂ heq' =>
        rw [heq'] at hid hkeeps
        obtain ⟨g₁, hg₁, hf⟩ | hfree := hqueue
        · obtain rfl := Option.some.inj hg₁
          have hg' : g'.id = f.id := hid.trans hf
          exact Or.inr (hg' ▸ mem_freeRecvQueue_rtwFreeRecvframe a₂ g'.id)
        · exact Or.inr (mem_freeRecvQueue_of_mem g'.id (hkeeps.freeRecvQueue ▸ hfree))
    · exact hqueue

theorem recvframeChkDefrag_of_queues (crypto : Crypto) (hq : queuesFragment a f) :
    ∃ s, (recvframeChkDefrag crypto a f).1 = none ∧
      f.id ∈ idsOf ((recvframeChkDefrag crypto a f).2.sta s).defragQ := by
  simp only [queuesFragment, Bool.and_eq_true, Bool.not_eq_true', Option.isSome_iff_exists] at hq
  obtain ⟨⟨hmfrag, hmcast⟩, s, hsta⟩ := hq
  refine ⟨s, ?_⟩
  simp [recvframeChkDefrag, chkDefragQueue, queueDefrag, hmfrag, hmcast, hsta,
    RecvFrame.setKeytrack, Adapter.queueFragment, Adapter.setDefragQ, Adapter.emit]

theorem recvframeChkDefrag_queued (crypto : Crypto) (h : Owned a (f.id ::ₘ hand))
    (hq : queuesFragment a f) :
    (recvframeChkDefrag crypto a f).1 = none ∧
      f.id ∈ (recvframeChkDefrag crypto a f).2.census ∧
      f.id ∉ (recvframeChkDefrag crypto a f).2.freeRecvQueue := by
  obtain ⟨s, hnone, hmem⟩ := recvframeChkDefrag_of_queues crypto hq
  have hmoves := recvframeChkDefrag_moves crypto h
  exact ⟨hnone, mem_defragQ (hmoves.owned h) hmem⟩

/-- A last fragment opens, the fragments fit together, the MIC and the port pass, and the window
refuses the MPDU. -/
def refusedDefrag (crypto : Crypto) (a : Adapter) (f : RecvFrame) : Bool :=
  !f.isWhole && (handedOn crypto a f).any (windowRefuses a)

theorem assemble_id {q : List RecvFrame} (h : assemble q = some g) :
    ∃ first rest, q = first :: rest ∧ first.attrib.fragNum = 0 ∧ g.id = first.id := by
  unfold assemble at h
  split at h
  · cases h
  · next first rest =>
    split at h
    · next hfrag => exact ⟨first, rest, rfl, hfrag, defragLoop_id h⟩
    · cases h

/-- Fragments end in the descriptor of the first, which is not that of the last. -/
theorem mpduOf_id_ne (h : Owned a (f.id ::ₘ hand)) (hfrag : f.isWhole = false)
    (hg : mpduOf a f = some g) : g.id ≠ f.id := by
  unfold mpduOf at hg
  rw [if_neg (by simp [hfrag])] at hg
  split at hg
  · cases hg
  next hlast =>
  obtain ⟨first, rest, hq, hfirst, hid⟩ := assemble_id hg
  unfold fragmentsOf at hq
  split at hq
  · cases hq
  next s _ =>
  cases hwait : (a.sta s).defragQ with
  | nil =>
    rw [hwait, List.nil_append, List.cons.injEq] at hq
    have hzero : f.attrib.fragNum = 0 := by
      rw [← hq.1] at hfirst
      exact hfirst
    have hmfrag : f.attrib.mfrag = false := by
      simp only [Bool.or_eq_true, not_or, Bool.not_eq_true] at hlast
      exact hlast.1
    simp [RecvFrame.isWhole, hmfrag, hzero] at hfrag
  | cons x q =>
    rw [hwait, List.cons_append, List.cons.injEq] at hq
    have hmem : x.id ∈ idsOf (a.sta s).defragQ := by
      rw [hwait]
      exact List.mem_map_of_mem List.mem_cons_self
    rw [hid, ← hq.1]
    exact fun heq => h.notMem (heq ▸ (mem_defragQ h hmem).1)

theorem mpduOf_isWhole (h : f.isWhole) : mpduOf a f = some f := if_pos h

theorem opened_isWhole (crypto : Crypto) (a : Adapter) (f : RecvFrame) :
    (opened crypto a f).isWhole = f.isWhole := by
  obtain ⟨d, k, heq⟩ := opened_eq crypto a f
  rw [heq]
  rfl

theorem opened_id (crypto : Crypto) (a : Adapter) (f : RecvFrame) :
    (opened crypto a f).id = f.id := by
  obtain ⟨d, k, heq⟩ := opened_eq crypto a f
  rw [heq]
  rfl

theorem behindMic_id (crypto : Crypto) (a : Adapter) (g : RecvFrame) :
    (behindMic crypto a g).id = g.id := by
  unfold behindMic
  split
  · exact recvframeChkmic_id crypto a g
  · rfl

/-- The stages of `recv_func_posthandle` before the reorder window. -/
def beforeWindow (crypto : Crypto) (a : Adapter) (f : RecvFrame) : Option RecvFrame × Adapter :=
  match decryptor crypto a f with
  | (none, a) => (none, a)
  | (some f, a) =>
    match recvframeChkDefrag crypto a f with
    | (none, a) => (none, a)
    | (some g, a) => portctrl a g

theorem recvFuncPosthandle_eq (env : Env) (a : Adapter) (f : RecvFrame) :
    (recvFuncPosthandle env a f).2 =
      match beforeWindow env.crypto a f with
      | (none, a₁) => a₁.countDrop
      | (some g, a₁) => (posthandleIndicate env a₁ (opened env.crypto a f) g).2 := by
  obtain ⟨hw, hdec⟩ := decryptor_verdict env.crypto a f
  unfold recvFuncPosthandle beforeWindow
  rw [hdec]
  split
  · next heq => simp [heq]
  · next f₁ a₁ heq =>
    split at heq
    · obtain ⟨rfl, rfl⟩ : opened env.crypto a f = f₁ ∧ a.setHwDecrypted hw = a₁ := by
        simpa using heq
      split
      · next heq' => simp [*]
      · next heq' => split <;> simp [*]
    · simp at heq

theorem beforeWindow_fst (crypto : Crypto) (a : Adapter) (f : RecvFrame) :
    (beforeWindow crypto a f).1 = handedOn crypto a f := by
  obtain ⟨hw, hdec⟩ := decryptor_verdict crypto a f
  unfold beforeWindow handedOn
  rw [hdec]
  by_cases hopens : opens crypto a f
  · have hfst := recvframeChkDefrag_fst crypto (a.setHwDecrypted hw) (opened crypto a f)
    have hgates := (setHwDecrypted_sameGates a hw).trans
      (recvframeChkDefrag_sameGates crypto (a.setHwDecrypted hw) (opened crypto a f))
    have hmpdu : mpduOf (a.setHwDecrypted hw) (opened crypto a f) =
        mpduOf a (opened crypto a f) := rfl
    rw [hmpdu] at hfst
    rcases hchk : recvframeChkDefrag crypto (a.setHwDecrypted hw) (opened crypto a f) with ⟨o, a₂⟩
    rw [hchk] at hfst hgates
    simp only [hopens, if_true, hchk]
    cases hof : mpduOf a (opened crypto a f) with
    | none =>
      rw [hof] at hfst
      obtain rfl : o = none := hfst
      rfl
    | some x =>
      obtain ⟨hmic, hbehind⟩ := micPasses_congr crypto (setHwDecrypted_sameGates a hw) x
      rw [hof, Option.bind_some, hmic, hbehind] at hfst
      rw [Option.bind_some]
      cases hok : micPasses crypto a x with
      | false =>
        obtain rfl : o = none := by simpa [hok] using hfst
        rfl
      | true =>
        obtain rfl : o = some (behindMic crypto a x) := by simpa [hok] using hfst
        dsimp only
        rw [portctrl_eq, portPasses_congr hgates, Bool.true_and]
        split <;> rfl
  · simp [hopens]

theorem beforeWindow_cases (crypto : Crypto) (a : Adapter) (f : RecvFrame) :
    (∃ a₁, decryptor crypto a f = (none, a₁) ∧ beforeWindow crypto a f = (none, a₁)) ∨
      ∃ f₁ a₁, decryptor crypto a f = (some f₁, a₁) ∧
        ((∃ a₂, recvframeChkDefrag crypto a₁ f₁ = (none, a₂) ∧
            beforeWindow crypto a f = (none, a₂)) ∨
          ∃ g a₂, recvframeChkDefrag crypto a₁ f₁ = (some g, a₂) ∧
            beforeWindow crypto a f = portctrl a₂ g) := by
  unfold beforeWindow
  rcases hdec : decryptor crypto a f with ⟨_ | f₁, a₁⟩
  · exact Or.inl ⟨a₁, rfl, rfl⟩
  · refine Or.inr ⟨f₁, a₁, rfl, ?_⟩
    rcases hchk : recvframeChkDefrag crypto a₁ f₁ with ⟨_ | g, a₂⟩
    · exact Or.inl ⟨a₂, rfl, by simp [hchk]⟩
    · exact Or.inr ⟨g, a₂, rfl, by simp [hchk]⟩

theorem beforeWindow_moves (crypto : Crypto) (h : Owned a (f.id ::ₘ hand)) :
    Moves a (f.id ::ₘ hand) (beforeWindow crypto a f).2
      (taken (beforeWindow crypto a f).1 + hand) := by
  have hmoves := decryptor_moves crypto h
  obtain ⟨a₁, hdec, hbefore⟩ | ⟨f₁, a₁, hdec, hrest⟩ := beforeWindow_cases crypto a f
  · rw [hdec] at hmoves
    rw [hbefore]
    exact hmoves
  rw [hdec] at hmoves
  have hdefrag := recvframeChkDefrag_moves crypto (hmoves.owned h)
  obtain ⟨a₂, hchk, hbefore⟩ | ⟨g, a₂, hchk, hbefore⟩ := hrest
  · rw [hchk] at hdefrag
    rw [hbefore]
    exact hmoves.trans hdefrag
  · rw [hchk] at hdefrag
    have hdefrag := hmoves.trans hdefrag
    rw [hbefore]
    exact hdefrag.trans (portctrl_moves (hdefrag.owned h))

theorem surplus_le_beforeWindow (crypto : Crypto) (a : Adapter) (f : RecvFrame) :
    a.surplus ≤ (beforeWindow crypto a f).2.surplus := by
  have hle := surplus_le_decryptor crypto a f
  obtain ⟨a₁, hdec, hbefore⟩ | ⟨f₁, a₁, hdec, hrest⟩ := beforeWindow_cases crypto a f
  · rw [hdec] at hle
    rw [hbefore]
    exact hle
  rw [hdec] at hle
  have hdefrag := hle.trans (surplus_le_recvframeChkDefrag crypto a₁ f₁)
  obtain ⟨a₂, hchk, hbefore⟩ | ⟨g, a₂, hchk, hbefore⟩ := hrest
  · rw [hchk] at hdefrag
    rw [hbefore]
    exact hdefrag
  · rw [hchk] at hdefrag
    rw [hbefore]
    exact hdefrag.trans (surplus_le_portctrl a₂ g)

/-- An MPDU comes to the window behind all stages. -/
theorem beforeWindow_some {crypto : Crypto} (h : (beforeWindow crypto a f).1 = some g) :
    ∃ f₁ a₁, decryptor crypto a f = (some f₁, a₁) ∧
      recvframeChkDefrag crypto a₁ f₁ = (some g, (beforeWindow crypto a f).2) := by
  obtain ⟨a₁, hdec, hbefore⟩ | ⟨f₁, a₁, hdec, hrest⟩ := beforeWindow_cases crypto a f
  · simp [hbefore] at h
  obtain ⟨a₂, hchk, hbefore⟩ | ⟨x, a₂, hchk, hbefore⟩ := hrest
  · simp [hbefore] at h
  obtain hpass | hdrop := portctrl_cases a₂ x
  · rw [hbefore, hpass] at h ⊢
    obtain rfl := Option.some.inj h
    exact ⟨f₁, a₁, hdec, hchk⟩
  · simp [hbefore, hdrop] at h

/-- A frame that brings another descriptor to the window is free. -/
theorem mem_freeRecvQueue_beforeWindow {crypto : Crypto}
    (h : (beforeWindow crypto a f).1 = some g) (hid : g.id ≠ f.id) :
    f.id ∈ (beforeWindow crypto a f).2.freeRecvQueue := by
  obtain ⟨f₁, a₁, hdec, hchk⟩ := beforeWindow_some h
  have hf₁ : f₁.id = f.id := decryptor_id crypto hdec
  have hqueues : queuesFragment a₁ f₁ = false := by
    by_contra hq
    obtain ⟨s, hnone, -⟩ := recvframeChkDefrag_of_queues crypto (by simpa using hq)
    simp [hchk] at hnone
  obtain ⟨y, hy, hyid⟩ | hfree := recvframeChkDefrag_fate crypto a₁ f₁ hqueues
  · rw [hchk] at hy
    obtain rfl := Option.some.inj hy
    exact absurd (hyid.trans hf₁) hid
  · rwa [hchk, hf₁] at hfree

/-- No window has changed when an MPDU comes to its own. -/
theorem reorder_beforeWindow {crypto : Crypto} (h : Owned a (f.id ::ₘ hand))
    (hsome : (beforeWindow crypto a f).1 = some g) (p : StaId × Tid) :
    (beforeWindow crypto a f).2.reorder p = a.reorder p := by
  have hmoves := decryptor_moves crypto h
  obtain ⟨hw, hverdict⟩ := decryptor_verdict crypto a f
  obtain ⟨f₁, a₁, hdec, hchk⟩ := beforeWindow_some hsome
  rw [hdec] at hmoves hverdict
  have ha₁ : a₁.reorder p = a.reorder p := by
    split at hverdict
    · obtain ⟨-, rfl⟩ := Prod.mk.inj hverdict
      rfl
    · cases hverdict
  exact (reorder_recvframeChkDefrag crypto (hmoves.owned h) hchk p).trans ha₁

theorem handedOn_id_ne (crypto : Crypto) (h : Owned a (f.id ::ₘ hand))
    (hg : handedOn crypto a f = some g) : g.id ≠ f.id ↔ f.isWhole = false := by
  unfold handedOn at hg
  split at hg
  · obtain ⟨x, hx, hpass⟩ := Option.bind_eq_some_iff.mp hg
    split at hpass
    · obtain rfl := Option.some.inj hpass
      rw [behindMic_id]
      cases hwhole : f.isWhole with
      | false =>
        refine iff_of_true ?_ rfl
        have hne := @mpduOf_id_ne a hand (opened crypto a f) x (by rwa [opened_id])
          (by rw [opened_isWhole, hwhole]) hx
        rwa [opened_id] at hne
      | true =>
        rw [mpduOf_isWhole (by rw [opened_isWhole, hwhole])] at hx
        obtain rfl := Option.some.inj hx
        simp [opened_id]
    · cases hpass
  · cases hg

theorem posthandleIndicate_moves (h : Owned a (g.id ::ₘ hand))
    (hid : (recvIndicatepktReorder env (countRxStats a g none) g).1 = .fail → g.id = f.id) :
    Moves a (g.id ::ₘ hand) (posthandleIndicate env a f g).2 hand := by
  have hcount : Moves a (g.id ::ₘ hand) (countRxStats a g none) (g.id ::ₘ hand) :=
    (countRxStats_keeps a g none).moves
  have hreorder := recvIndicatepktReorder_moves env (hcount.owned h)
  have hmoves := hcount.trans hreorder
  unfold posthandleIndicate
  extract_lets a₁
  split
  · next a₂ heq =>
    -- the window refuses the frame
    rw [heq] at hid hmoves
    have hgf := hid rfl
    have hmoves' : Moves a (g.id ::ₘ hand) a₂ (f.id ::ₘ hand) := by
      simpa [reorderHand, hgf] using hmoves
    have hfree := hmoves'.trans (rtwFreeRecvframe_moves (hmoves'.owned h))
    exact hfree.trans (countDrop_keeps _).moves
  · next a₂ heq =>
    -- the window has the frame
    rw [heq] at hmoves
    simpa [reorderHand] using hmoves
  · next a₂ heq =>
    rw [heq] at hmoves
    have hmoves' : Moves a (g.id ::ₘ hand) a₂ (g.id ::ₘ hand) := by
      simpa [reorderHand] using hmoves
    extract_lets a₃ r a₄
    have hset : Moves a (g.id ::ₘ hand) a₃ (g.id ::ₘ hand) :=
      hmoves'.trans (setIseq_keeps a₂ g _).moves
    have hmpdu := hset.trans (recvProcessMpdu_moves env (hset.owned h))
    have hset' : Moves a (g.id ::ₘ hand) a₄ hand := hmpdu.trans (setIseq_keeps r.2 g _).moves
    dsimp only
    split
    · exact hset'.trans (countDrop_keeps a₄).moves
    · exact hset'

theorem surplus_le_posthandleIndicate (a : Adapter) (f g : RecvFrame) :
    a.surplus ≤ (posthandleIndicate env a f g).2.surplus := by
  have hcount := (countRxStats_keeps a g none).surplus.ge
  have hreorder := hcount.trans (surplus_le_recvIndicatepktReorder env (countRxStats a g none) g)
  unfold posthandleIndicate
  extract_lets a₁
  split
  · next a₂ heq =>
    rw [heq] at hreorder
    exact hreorder.trans (surplus_le_rtwFreeRecvframe a₂ f.id)
  · next a₂ heq =>
    rw [heq] at hreorder
    exact hreorder
  · next a₂ heq =>
    rw [heq] at hreorder
    extract_lets a₃ r a₄
    have hset : a.surplus ≤ a₃.surplus := hreorder.trans (setIseq_keeps a₂ g _).surplus.ge
    have hmpdu := hset.trans (surplus_le_recvProcessMpdu env a₃ g)
    have hset' : a.surplus ≤ a₄.surplus := hmpdu.trans (setIseq_keeps r.2 g _).surplus.ge
    dsimp only
    split
    · exact hset'
    · exact hset'

/-- The window of an MPDU that comes to it answers as before the call. -/
theorem recvIndicatepktReorder_beforeWindow (env : Env) (h : Owned a (f.id ::ₘ hand))
    (hsome : (beforeWindow env.crypto a f).1 = some g) :
    (recvIndicatepktReorder env (countRxStats (beforeWindow env.crypto a f).2 g none) g).1 = .fail ↔
      windowRefuses a g := by
  obtain ⟨htakes, hrefuses⟩ :=
    windowTakes_congr (a := a) (fun p => (reorder_countRxStats _ g none p).trans
    (reorder_beforeWindow h hsome p)) g
  rw [recvIndicatepktReorder_fst, htakes, hrefuses]
  cases hwindow : windowRefuses a g with
  | false => split <;> simp
  | true => simp [not_windowTakes_of_refuses hwindow]

theorem recvFuncPosthandle_moves (h : Owned a (f.id ::ₘ hand))
    (hf : refusedDefrag env.crypto a f = false) :
    Moves a (f.id ::ₘ hand) (recvFuncPosthandle env a f).2 hand := by
  have hmoves := beforeWindow_moves env.crypto h
  have hfst := beforeWindow_fst env.crypto a f
  rw [recvFuncPosthandle_eq]
  rcases hbefore : beforeWindow env.crypto a f with ⟨o, a₁⟩
  rw [hbefore] at hmoves hfst
  cases o with
  | none =>
    rw [taken_none, zero_add] at hmoves
    exact hmoves.trans (countDrop_keeps a₁).moves
  | some g =>
    have hrefuses := recvIndicatepktReorder_beforeWindow (g := g) env h (by rw [hbefore])
    rw [hbefore] at hrefuses
    refine hmoves.trans (posthandleIndicate_moves (hmoves.owned h) fun hfail => ?_)
    rw [opened_id]
    by_contra hid
    have hfrag := (handedOn_id_ne env.crypto h hfst.symm).mp hid
    simp [refusedDefrag, hfrag, ← hfst, hrefuses.mp hfail] at hf

theorem surplus_le_recvFuncPosthandle (a : Adapter) (f : RecvFrame) :
    a.surplus ≤ (recvFuncPosthandle env a f).2.surplus := by
  have hle := surplus_le_beforeWindow env.crypto a f
  rw [recvFuncPosthandle_eq]
  rcases hbefore : beforeWindow env.crypto a f with ⟨o, a₁⟩
  rw [hbefore] at hle
  cases o with
  | none => exact hle
  | some g => exact hle.trans (surplus_le_posthandleIndicate a₁ _ g)

theorem surplus_lt_posthandleIndicate (hfree : f.id ∈ a.freeRecvQueue)
    (hfail : (recvIndicatepktReorder env (countRxStats a g none) g).1 = .fail) :
    a.surplus < (posthandleIndicate env a f g).2.surplus := by
  have hcount := countRxStats_keeps a g none
  have hkeeps : a.Keeps (recvIndicatepktReorder env (countRxStats a g none) g).2 :=
    hcount.trans (recvIndicatepktReorder_keeps env (by rw [hfail]; nofun))
  unfold posthandleIndicate
  extract_lets a₁
  split
  · next a₂ heq =>
    rw [heq] at hkeeps
    calc a.surplus = a₂.surplus := hkeeps.surplus.symm
      _ < (rtwFreeRecvframe a₂ f.id).surplus :=
        surplus_lt_rtwFreeRecvframe (hkeeps.freeRecvQueue ▸ hfree)
  · next heq => simp [a₁, heq] at hfail
  · next heq => simp [a₁, heq] at hfail

theorem surplus_lt_recvFuncPosthandle (h : Owned a (f.id ::ₘ hand))
    (hf : refusedDefrag env.crypto a f) : a.surplus < (recvFuncPosthandle env a f).2.surplus := by
  have hle := surplus_le_beforeWindow env.crypto a f
  have hfst := beforeWindow_fst env.crypto a f
  rw [recvFuncPosthandle_eq]
  simp only [refusedDefrag, Bool.and_eq_true, Bool.not_eq_true', Option.any_eq_true] at hf
  obtain ⟨hfrag, g, hg, hrefuses⟩ := hf
  have hid := (handedOn_id_ne env.crypto h hg).mpr hfrag
  rw [hg] at hfst
  have hfree := mem_freeRecvQueue_beforeWindow hfst hid
  have hfail := (recvIndicatepktReorder_beforeWindow env h hfst).mpr hrefuses
  rcases hbefore : beforeWindow env.crypto a f with ⟨o, a₁⟩
  rw [hbefore] at hle hfst hfree hfail
  obtain rfl : o = some g := hfst
  exact hle.trans_lt (surplus_lt_posthandleIndicate (by rwa [opened_id]) hfail)

/-! ## Management frames -/

/-- `mgt_dispatcher` takes no received frame for itself: it may empty queues of stations into the
free list, and it does not allocate. -/
structure Env.DispatchKeeps (env : Env) : Prop where
  moves : ∀ a f hand, Owned a hand → Moves a hand (env.mgtDispatcher a f) hand
  surplus : ∀ a f, a.surplus ≤ (env.mgtDispatcher a f).surplus
  free : ∀ a f, a.freeRecvQueue ⊆ (env.mgtDispatcher a f).freeRecvQueue

/-- A protected management frame does not open under the cipher of its station. -/
def mgmtUndecryptable (env : Env) (a : Adapter) (f : RecvFrame) : Bool :=
  a.securitypriv.binstallBIPkey && mgmtProtect a f = .decrypt &&
    f.psta.any fun s => env.zmalloc a (mgmtDecryptFrame (a.sta s) f) &&
      !opens env.crypto a (mgmtDecryptFrame (a.sta s) f)

/-- There is no BIP key, or the frame is left alone, or its management MIC is right, or it opens. -/
def protectPasses (env : Env) (a : Adapter) (f : RecvFrame) : Bool :=
  !a.securitypriv.binstallBIPkey ||
    match mgmtProtect a f with
    | .pass => true
    | .drop => false
    | .bipVerify =>
      (rtwBipVerify env.crypto (env.zmalloc a f) a.securitypriv f.attrib.pktLen f.rxData).1 =
      .success
    | .decrypt =>
      f.psta.any fun s => env.zmalloc a (mgmtDecryptFrame (a.sta s) f) &&
        opens env.crypto a (mgmtDecryptFrame (a.sta s) f)

/-- A management frame behind `validate_mgmt_protect`. -/
def mgmtOpened (crypto : Crypto) (a : Adapter) (f : RecvFrame) : RecvFrame :=
  match f.psta with
  | none => f
  | some s =>
    if a.securitypriv.binstallBIPkey ∧ mgmtProtect a f = .decrypt then
      mgmtDecrypted (opened crypto a (mgmtDecryptFrame (a.sta s) f))
    else f

/-- A management frame does not open; or it passes, but its MIC is wrong, or it is a fragment that
does not wait for others. -/
def mgmtFreed (env : Env) (a : Adapter) (f : RecvFrame) : Bool :=
  let f := { f with psta := rtwGetStainfo a (getAddr2 f.rxData) }
  let g := mgmtOpened env.crypto a f
  mgmtUndecryptable env a f || protectPasses env a f &&
    if g.isWhole then !micPasses env.crypto a g else !queuesFragment a g

/-- `validate_recv_mgnt_frame` has freed the frame, or goes on in another descriptor. -/
def mgmtFault (env : Env) (a : Adapter) (f : RecvFrame) : Bool :=
  let f := { f with psta := rtwGetStainfo a (getAddr2 f.rxData) }
  match validateMgmtProtect env a f with
  | (false, _, _) => mgmtUndecryptable env a f
  | (true, f, a) =>
    !queuesFragment a f && (recvframeChkDefrag env.crypto a f).1.map RecvFrame.id ≠ some f.id

theorem validateMgmtProtect_verdict (env : Env) (a : Adapter) (f : RecvFrame) :
    (validateMgmtProtect env a f).1 = protectPasses env a f ∧ (protectPasses env a f →
      (validateMgmtProtect env a f).2.1 = mgmtOpened env.crypto a f ∧
        a.SameGates (validateMgmtProtect env a f).2.2) := by
  unfold validateMgmtProtect protectPasses mgmtOpened
  cases hbip : a.securitypriv.binstallBIPkey with
  | false =>
    refine ⟨rfl, fun _ => ⟨?_, Adapter.SameGates.refl a⟩⟩
    cases f.psta <;> simp
  | true =>
    cases hprotect : mgmtProtect a f with
    | pass =>
      refine ⟨rfl, fun _ => ⟨?_, Adapter.SameGates.refl a⟩⟩
      cases f.psta <;> simp
    | drop => exact ⟨rfl, nofun⟩
    | bipVerify =>
      refine ⟨rfl, fun _ => ⟨?_, ⟨fun _ => rfl, rfl, rfl, rfl, fun _ => rfl⟩⟩⟩
      cases f.psta <;> simp
    | decrypt =>
      cases hpsta : f.psta with
      | none => exact ⟨rfl, nofun⟩
      | some s =>
        obtain ⟨hw, hdec⟩ := decryptor_verdict env.crypto a (mgmtDecryptFrame (a.sta s) f)
        dsimp only
        rw [hdec]
        cases hmem : env.zmalloc a (mgmtDecryptFrame (a.sta s) f) with
        | false => simp [hmem]
        | true =>
          by_cases hopens : opens env.crypto a (mgmtDecryptFrame (a.sta s) f)
          · simp [hmem, hopens, setHwDecrypted_sameGates]
          · simp [hmem, hopens]

theorem validateMgmtProtect_sta (env : Env) (a : Adapter) (f : RecvFrame)
    (h : protectPasses env a f) : (validateMgmtProtect env a f).2.2.sta = a.sta := by
  unfold protectPasses at h
  unfold validateMgmtProtect
  cases hbip : a.securitypriv.binstallBIPkey with
  | false => rfl
  | true =>
    cases hprotect : mgmtProtect a f with
    | pass => rfl
    | drop => rfl
    | bipVerify => rfl
    | decrypt =>
      cases hpsta : f.psta with
      | none => rfl
      | some s =>
        simp only [hbip, hprotect, hpsta, Bool.not_true, Bool.false_or, Option.any_some,
          Bool.and_eq_true] at h
        obtain ⟨hw, hdec⟩ := decryptor_verdict env.crypto a (mgmtDecryptFrame (a.sta s) f)
        rw [if_pos h.2] at hdec
        simp [hdec, h.1, Adapter.setHwDecrypted]

/-- `validate_mgmt_protect` frees a frame that it cannot decrypt, and no other. -/
theorem validateMgmtProtect_cases (env : Env) (a : Adapter) (f : RecvFrame) :
    ((validateMgmtProtect env a f).2.1.id = f.id ∧ a.Keeps (validateMgmtProtect env a f).2.2 ∧
        mgmtUndecryptable env a f = false) ∨
      ((validateMgmtProtect env a f).1 = false ∧ mgmtUndecryptable env a f ∧
        ∃ a₁, a.Keeps a₁ ∧ (validateMgmtProtect env a f).2.2 = rtwFreeRecvframe a₁ f.id) := by
  unfold validateMgmtProtect mgmtUndecryptable
  by_cases hbip : a.securitypriv.binstallBIPkey = false
  · simp only [hbip, Bool.not_false, if_true]
    exact Or.inl ⟨trivial, Adapter.Keeps.refl a, rfl⟩
  simp only [Bool.not_eq_false] at hbip
  simp only [hbip, Bool.not_true, Bool.false_eq_true, if_false]
  split
  · next hp => exact Or.inl ⟨rfl, Adapter.Keeps.refl a, by simp [hp]⟩
  · next hp => exact Or.inl ⟨rfl, Adapter.Keeps.refl a, by simp [hp]⟩
  · next hp => exact Or.inl ⟨rfl, ⟨rfl, rfl, rfl⟩, by simp [hp]⟩
  · next hp =>
    cases hs : f.psta with
    | none => exact Or.inl ⟨rfl, Adapter.Keeps.refl a, by simp⟩
    | some s =>
      have hid : (mgmtDecryptFrame (a.sta s) f).id = f.id := rfl
      by_cases hmem : env.zmalloc a (mgmtDecryptFrame (a.sta s) f) = false
      · simp only [hmem, Bool.not_false, if_true]
        exact Or.inl ⟨hid, Adapter.Keeps.refl a, by simp [hmem]⟩
      simp only [Bool.not_eq_false] at hmem
      simp only [hmem, Bool.not_true, Bool.false_eq_true, if_false]
      obtain ⟨hw, hdec⟩ := decryptor_verdict env.crypto a (mgmtDecryptFrame (a.sta s) f)
      rw [hdec]
      by_cases hopens : opens env.crypto a (mgmtDecryptFrame (a.sta s) f)
      · simp only [hopens, if_true]
        exact Or.inl ⟨opened_id _ _ _, setHwDecrypted_keeps a hw, by simp [hopens]⟩
      · simp only [hopens, Bool.false_eq_true, if_false]
        exact Or.inr ⟨trivial, by simp [hp, hmem, hopens], _, setHwDecrypted_keeps a hw, rfl⟩

theorem mgmtFault_eq (h : Owned a (f.id ::ₘ hand)) : mgmtFault env a f = mgmtFreed env a f := by
  unfold mgmtFault mgmtFreed
  extract_lets f₀ g
  obtain ⟨hret, hpassed⟩ := validateMgmtProtect_verdict env a f₀
  have hcases := validateMgmtProtect_cases env a f₀
  rcases hval : validateMgmtProtect env a f₀ with ⟨ok, g₁, a₁⟩
  rw [hval] at hret hpassed hcases
  obtain rfl : ok = protectPasses env a f₀ := hret
  cases hok : protectPasses env a f₀ with
  | false => simp
  | true =>
    obtain ⟨hg, hgates⟩ := hpassed hok
    obtain rfl : g₁ = g := hg
    clear_value g
    obtain ⟨hid, hkeeps, hun⟩ | ⟨hno, -⟩ := hcases
    · have hid : g.id = f.id := hid
      have howned : Owned a₁ (g.id ::ₘ hand) := by
        rw [hid]
        exact hkeeps.moves.owned h
      have hqueues : queuesFragment a₁ g = queuesFragment a g := by
        unfold queuesFragment defragSta
        rw [hgates.stainfo, hgates.stainfo]
      have hfst := recvframeChkDefrag_fst env.crypto a₁ g
      simp only [hun, Bool.false_or, Bool.true_and, hqueues, hfst]
      cases hwhole : g.isWhole with
      | true =>
        have hmfrag : g.attrib.mfrag = false := by
          simp only [RecvFrame.isWhole, Bool.and_eq_true, Bool.not_eq_true'] at hwhole
          exact hwhole.1
        rw [mpduOf_isWhole hwhole, Option.bind_some, (micPasses_congr env.crypto hgates g).1]
        cases hmic : micPasses env.crypto a g <;> simp [queuesFragment, hmfrag, behindMic_id]
      | false =>
        simp only [Bool.false_eq_true, if_false]
        refine Bool.and_eq_left_iff_imp.mpr fun _ => decide_eq_true fun heq => ?_
        obtain ⟨x, hx, hxid⟩ := Option.map_eq_some_iff.mp heq
        obtain ⟨y, hy, hpass⟩ := Option.bind_eq_some_iff.mp hx
        split at hpass
        · obtain rfl := Option.some.inj hpass
          rw [behindMic_id] at hxid
          exact mpduOf_id_ne howned hwhole hy hxid
        · cases hpass
    · simp [hok] at hno

/-- A management frame that was not freed is in hand still, or it waits in a fragment queue; the
free of `recv_func_prehandle` is its only one. -/
theorem validateRecvMgntFrame_moves (hd : env.DispatchKeeps) (h : Owned a (f.id ::ₘ hand))
    (hf : mgmtFreed env a f = false) :
    Moves a (f.id ::ₘ hand) (rtwFreeRecvframe (validateRecvMgntFrame env a f) f.id) hand := by
  rw [← mgmtFault_eq h] at hf
  unfold mgmtFault at hf
  unfold validateRecvMgntFrame
  extract_lets f₀ at hf
  extract_lets
  obtain ⟨hid, hkeeps, -⟩ | ⟨hret, hun, -⟩ := validateMgmtProtect_cases env a f₀
  · split
    · next heq =>
      rw [heq] at hkeeps
      have hmoves : Moves a (f.id ::ₘ hand) _ (f.id ::ₘ hand) := hkeeps.moves
      exact hmoves.trans (rtwFreeRecvframe_moves (hmoves.owned h))
    · next f₁ a₁ heq =>
      rw [heq] at hid hkeeps
      simp only [heq] at hf
      have hf₁ : f₁.id = f.id := hid
      have hmoves : Moves a (f.id ::ₘ hand) a₁ (f₁.id ::ₘ hand) := by
        rw [hf₁]
        exact hkeeps.moves
      have howned := hmoves.owned h
      have hdefrag := recvframeChkDefrag_moves env.crypto howned
      by_cases hq : queuesFragment a₁ f₁
      · -- the fragment is queued, and taken off the queue by the free
        obtain ⟨hnone, hcensus, hfree⟩ := recvframeChkDefrag_queued env.crypto howned hq
        split
        · next a₂ heq' =>
          rw [heq', taken_none, zero_add] at hdefrag
          rw [heq', hf₁] at hcensus hfree
          have hmoves' := hmoves.trans hdefrag
          exact hmoves'.trans (rtwFreeRecvframe_moves_of_queued (hmoves'.owned h) hcensus hfree)
        · next heq' => simp [heq'] at hnone
      · simp only [hq, Bool.not_false, Bool.true_and, decide_eq_false_iff_not, not_not] at hf
        split
        · next heq' => simp [heq'] at hf
        · next g a₂ heq' =>
          rw [heq'] at hdefrag
          have hg : g.id = f₁.id := by simpa [heq'] using hf
          have hmoves' := hmoves.trans hdefrag
          extract_lets a₃
          have hstats : a₂.Keeps a₃ := by
            unfold a₃
            split
            · exact Adapter.Keeps.refl a₂
            · exact setSta_keeps rfl
          have hmoves'' := hmoves'.trans hstats.moves
          have hdispatch := hmoves''.trans (hd.moves a₃ g _ (hmoves''.owned h))
          rw [taken_some, hg, hf₁, Multiset.singleton_add] at hdispatch
          exact hdispatch.trans (rtwFreeRecvframe_moves (hdispatch.owned h))
  · -- the frame was freed in `decryptor`
    have hun' : mgmtUndecryptable env a f₀ = false := by
      split at hf
      · exact hf
      · next heq => simp [heq] at hret
    simp [hun'] at hun

theorem surplus_lt_validateRecvMgntFrame (hd : env.DispatchKeeps) (h : Owned a (f.id ::ₘ hand))
    (hf : mgmtFreed env a f) :
    a.surplus < (rtwFreeRecvframe (validateRecvMgntFrame env a f) f.id).surplus := by
  rw [← mgmtFault_eq h] at hf
  unfold mgmtFault at hf
  unfold validateRecvMgntFrame
  extract_lets f₀ at hf
  extract_lets
  obtain ⟨hid, hkeeps, hun⟩ | ⟨hret, hun, a₁, hkeeps, hfree⟩ := validateMgmtProtect_cases env a f₀
  · split
    · next heq => simp [heq, hun] at hf
    · next f₁ a₁ heq =>
      rw [heq] at hid hkeeps
      have hf₁ : f₁.id = f.id := hid
      simp only [heq, Bool.and_eq_true, Bool.not_eq_true', decide_eq_true_eq] at hf
      have hdefrag := hkeeps.surplus.ge.trans (surplus_le_recvframeChkDefrag env.crypto a₁ f₁)
      have hfree : f.id ∈ (recvframeChkDefrag env.crypto a₁ f₁).2.freeRecvQueue := by
        obtain ⟨g, hg, hid'⟩ | hfree := recvframeChkDefrag_fate env.crypto a₁ f₁ hf.1
        · simp [hg, hid'] at hf
        · exact hf₁ ▸ hfree
      split
      · next a₂ heq' =>
        rw [heq'] at hdefrag hfree
        exact hdefrag.trans_lt (surplus_lt_rtwFreeRecvframe hfree)
      · next g a₂ heq' =>
        rw [heq'] at hdefrag hfree
        extract_lets a₃
        have hstats : a₂.Keeps a₃ := by
          unfold a₃
          split
          · exact Adapter.Keeps.refl a₂
          · exact setSta_keeps rfl
        have hfree' : f.id ∈ (env.mgtDispatcher a₃ g).freeRecvQueue :=
          hd.free a₃ g (hstats.freeRecvQueue ▸ hfree)
        calc a.surplus ≤ a₃.surplus := hdefrag.trans hstats.surplus.ge
          _ ≤ (env.mgtDispatcher a₃ g).surplus := hd.surplus a₃ g
          _ < _ := surplus_lt_rtwFreeRecvframe hfree'
  · split
    · next a₂ heq =>
      rw [heq] at hfree
      obtain rfl : a₂ = rtwFreeRecvframe a₁ f.id := hfree
      calc a.surplus = a₁.surplus := hkeeps.surplus.symm
        _ ≤ (rtwFreeRecvframe a₁ f.id).surplus := surplus_le_rtwFreeRecvframe a₁ f.id
        _ < _ := surplus_lt_rtwFreeRecvframe (mem_freeRecvQueue_rtwFreeRecvframe a₁ f.id)
    · next heq => simp [heq] at hret

theorem surplus_le_validateRecvMgntFrame (hd : env.DispatchKeeps) (a : Adapter) (f : RecvFrame) :
    a.surplus ≤ (validateRecvMgntFrame env a f).surplus := by
  unfold validateRecvMgntFrame
  extract_lets f₀
  have hprotect : a.surplus ≤ (validateMgmtProtect env a f₀).2.2.surplus := by
    obtain ⟨-, hkeeps, -⟩ | ⟨-, -, a₁, hkeeps, hfree⟩ := validateMgmtProtect_cases env a f₀
    · exact hkeeps.surplus.ge
    · rw [hfree]
      exact hkeeps.surplus.ge.trans (surplus_le_rtwFreeRecvframe a₁ _)
  split
  · next heq =>
    rw [heq] at hprotect
    exact hprotect
  · next f₁ a₁ heq =>
    rw [heq] at hprotect
    have hdefrag := hprotect.trans (surplus_le_recvframeChkDefrag env.crypto a₁ f₁)
    split
    · next heq' =>
      rw [heq'] at hdefrag
      exact hdefrag
    · next g a₂ heq' =>
      rw [heq'] at hdefrag
      refine hdefrag.trans (le_trans ?_ (hd.surplus _ g))
      split <;> exact le_rfl

def mpFreed (a : Adapter) (f : RecvFrame) : Bool :=
  a.fwState.asoc && (!a.rxBindicatePkt || (getFrameType f.rxData = .data &&
    (mpDataIndicate a { f with attrib := parseFrameCtrl f.rxData f.attrib }).isSome))

theorem mpDataIndicate_id {msdu : Bytes} (h : mpDataIndicate a f = some (g, msdu)) :
    g.id = f.id ∧ g.pkt = f.pkt := by
  unfold mpDataIndicate at h
  extract_lets r f' at h
  split at h
  · rw [Option.some.injEq, Prod.mk.injEq] at h
    rw [← h.1]
    exact ⟨rfl, rfl⟩
  · exact absurd h nofun

theorem mpRecvFrame_cases (a : Adapter) (f : RecvFrame) :
    (mpFreed a f = false ∧ mpRecvFrame a f = rtwFreeRecvframe a f.id) ∨
      (mpFreed a f ∧ ∃ es,
        mpRecvFrame a f = rtwFreeRecvframe (rtwFreeRecvframe (a.emit es) f.id) f.id) := by
  have hself : a = a.emit [] := by simp [Adapter.emit]
  unfold mpFreed mpRecvFrame
  by_cases hasoc : a.fwState.asoc = false
  · exact Or.inl (by simp [hasoc])
  simp only [Bool.not_eq_false] at hasoc
  by_cases hbind : a.rxBindicatePkt = false
  · refine Or.inr ⟨by simp [hasoc, hbind], [], ?_⟩
    rw [← hself]
    simp [hasoc, hbind]
  simp only [Bool.not_eq_false] at hbind
  by_cases hdata : getFrameType f.rxData = .data
  · cases hind : mpDataIndicate a { f with attrib := parseFrameCtrl f.rxData f.attrib } with
    | none => exact Or.inl (by simp [hasoc, hbind, hdata, hind])
    | some r =>
      obtain ⟨hid, hpkt⟩ := mpDataIndicate_id hind
      refine Or.inr ⟨by simp [hasoc, hbind, hdata], ?_⟩
      simp only [hasoc, hbind, hdata, hind, Bool.not_true, Bool.false_eq_true, if_false,
        ne_eq, not_true_eq_false]
      split
      · refine ⟨[], ?_⟩
        rw [← hself, hid]
      · exact ⟨_, by rw [hid]⟩
  · exact Or.inl (by simp [hasoc, hbind, hdata])

theorem validateDataBody_id (a : Adapter) (s : StaId) (f : RecvFrame) :
    (validateDataBody a s f).2.1.id = f.id := by
  unfold validateDataBody
  extract_lets
  split <;> rfl

theorem validateRecvDataFrame_id (a : Adapter) (f : RecvFrame) :
    (validateRecvDataFrame a f).2.1.id = f.id := by
  unfold validateRecvDataFrame
  extract_lets
  split
  · split
    · rfl
    · exact validateDataBody_id _ _ _
  · rfl
  · rfl

theorem validateRecvFrame_cases (env : Env) (a : Adapter) (f : RecvFrame) :
    (frameCtrl f.rxData % 4 = 0 ∧ getFrameType f.rxData = .mgt ∧ validateRecvFrame env a f =
        (.fail, { f with attrib := parseFrameCtrl f.rxData f.attrib },
          validateRecvMgntFrame env a { f with attrib := parseFrameCtrl f.rxData f.attrib })) ∨
      (¬(frameCtrl f.rxData % 4 = 0 ∧ getFrameType f.rxData = .mgt) ∧
        (validateRecvFrame env a f).2.1.id = f.id ∧ a.Keeps (validateRecvFrame env a f).2.2) := by
  unfold validateRecvFrame
  extract_lets w f₁ attrib f₂ r
  split
  · next hver => exact Or.inr ⟨fun h => hver h.1, rfl, Adapter.Keeps.refl a⟩
  · next hver =>
    simp only [ne_eq, not_not] at hver
    split
    · next hty => exact Or.inl ⟨hver, hty, rfl⟩
    · next hty =>
        exact Or.inr ⟨by simp [w] at hty; simp [hty], rfl, validateRecvCtrlFrame_keeps a f₁⟩
    · next hty =>
      have hkeeps : a.Keeps r.2.2 := validateRecvDataFrame_keeps a f₂
      refine Or.inr ⟨by simp [w] at hty; simp [hty], validateRecvDataFrame_id a f₂, ?_⟩
      dsimp only
      split
      · exact hkeeps.trans ⟨rfl, rfl, rfl⟩
      · exact hkeeps
    · next hty => exact Or.inr ⟨by simp [w] at hty; simp [hty], rfl, Adapter.Keeps.refl a⟩

/-- A management frame that `recv_func_prehandle` frees a second time. -/
def mgmtRefreed (env : Env) (a : Adapter) (f : RecvFrame) : Bool :=
  frameCtrl f.rxData % 4 = 0 && getFrameType f.rxData = .mgt &&
    mgmtFreed env a { f with attrib := parseFrameCtrl f.rxData f.attrib }

def prehandleFault (env : Env) (a : Adapter) (f : RecvFrame) : Bool :=
  if a.mpMode ∨ a.bRTWSmbCfg then mpFreed a f else mgmtRefreed env a f

/-- Behind `recv_func_prehandle` a frame that passed is in hand, and any other is accounted for. -/
theorem recvFuncPrehandle_moves (hd : env.DispatchKeeps) (h : Owned a (f.id ::ₘ hand))
    (hf : prehandleFault env a f = false) :
    (recvFuncPrehandle env a f).2.1.id = f.id ∧
      Moves a (f.id ::ₘ hand) (recvFuncPrehandle env a f).2.2
        (if (recvFuncPrehandle env a f).1 = .success then f.id ::ₘ hand else hand) := by
  unfold prehandleFault at hf
  unfold recvFuncPrehandle
  split
  · next hmp =>
    rw [if_pos hmp] at hf
    obtain ⟨-, hfree⟩ | ⟨hfreed, -⟩ := mpRecvFrame_cases a f
    · rw [hfree]
      exact ⟨rfl, by simpa using rtwFreeRecvframe_moves h⟩
    · simp [hf] at hfreed
  · next hmp =>
    rw [if_neg hmp] at hf
    dsimp only
    obtain ⟨hver, hty, heq⟩ | ⟨-, hid, hkeeps⟩ := validateRecvFrame_cases env a f
    · rw [heq]
      have hfreed :
          mgmtFreed env a { f with attrib := parseFrameCtrl f.rxData f.attrib } = false := by
        simpa [mgmtRefreed, hver, hty] using hf
      have hmgnt := validateRecvMgntFrame_moves
        (f := { f with attrib := parseFrameCtrl f.rxData f.attrib }) hd h hfreed
      exact ⟨rfl, by simpa using hmgnt⟩
    · refine ⟨hid, ?_⟩
      have hmoves : Moves a (f.id ::ₘ hand) (validateRecvFrame env a f).2.2 (f.id ::ₘ hand) :=
        hkeeps.moves
      split
      · exact hmoves
      · exact hmoves.trans (rtwFreeRecvframe_moves (hmoves.owned h))

theorem surplus_le_recvFuncPrehandle (hd : env.DispatchKeeps) (a : Adapter) (f : RecvFrame) :
    a.surplus ≤ (recvFuncPrehandle env a f).2.2.surplus := by
  unfold recvFuncPrehandle
  split
  · obtain ⟨-, hfree⟩ | ⟨-, es, hfree⟩ := mpRecvFrame_cases a f
    · rw [hfree]
      exact surplus_le_rtwFreeRecvframe a f.id
    · rw [hfree]
      exact (surplus_le_rtwFreeRecvframe (a.emit es) f.id).trans
        (surplus_le_rtwFreeRecvframe _ f.id)
  · have hvalidate : a.surplus ≤ (validateRecvFrame env a f).2.2.surplus := by
      obtain ⟨-, -, heq⟩ | ⟨-, -, hkeeps⟩ := validateRecvFrame_cases env a f
      · rw [heq]
        exact surplus_le_validateRecvMgntFrame hd a _
      · exact hkeeps.surplus.ge
    dsimp only
    split
    · exact hvalidate
    · exact hvalidate.trans (surplus_le_rtwFreeRecvframe _ f.id)

theorem surplus_lt_recvFuncPrehandle (hd : env.DispatchKeeps) (h : Owned a (f.id ::ₘ hand))
    (hf : prehandleFault env a f) :
    (recvFuncPrehandle env a f).1 = .fail ∧
      a.surplus < (recvFuncPrehandle env a f).2.2.surplus := by
  unfold prehandleFault at hf
  unfold recvFuncPrehandle
  split
  · next hmp =>
    rw [if_pos hmp] at hf
    refine ⟨rfl, ?_⟩
    obtain ⟨hfreed, -⟩ | ⟨-, es, hfree⟩ := mpRecvFrame_cases a f
    · simp [hf] at hfreed
    · rw [hfree]
      exact (surplus_le_rtwFreeRecvframe (a.emit es) f.id).trans_lt
        (surplus_lt_rtwFreeRecvframe (mem_freeRecvQueue_rtwFreeRecvframe _ f.id))
  · next hmp =>
    rw [if_neg hmp] at hf
    simp only [mgmtRefreed, Bool.and_eq_true, decide_eq_true_eq] at hf
    obtain ⟨⟨hver, hty⟩, hfreed⟩ := hf
    obtain ⟨-, -, heq⟩ | ⟨hother, -⟩ := validateRecvFrame_cases env a f
    · simp only [heq]
      exact ⟨trivial, surplus_lt_validateRecvMgntFrame
        (f := { f with attrib := parseFrameCtrl f.rxData f.attrib }) hd h hfreed⟩
    · exact absurd ⟨hver, hty⟩ hother

theorem dequeueUcSwdecPending_moves (a : Adapter) :
    Moves a hand (dequeueUcSwdecPending a).2 (taken (dequeueUcSwdecPending a).1 + hand) := by
  unfold dequeueUcSwdecPending
  split
  · rw [taken_none, zero_add]
    exact Ledger.Moves.refl
  · next f rest heq =>
    refine ⟨?_, rfl⟩
    simp only [recvLedger, Adapter.census, heq, idsOf_cons, taken_some, ← Multiset.singleton_add]
    abel

theorem rtwEnqueueRecvframe_moves (h : Owned a (f.id ::ₘ hand)) :
    Moves a (f.id ::ₘ hand) (rtwEnqueueRecvframe a f) hand := by
  have hid : f.id ∉ a.census := h.notMem
  have hcensus : (a.listDelete f.id).census = a.census := by
    rw [census_listDelete]
    refine Multiset.filter_eq_self.mpr fun i hi => ?_
    exact ne_of_mem_of_not_mem hi hid
  have hfree : a.freeRecvQueue.filter (· ≠ f.id) = a.freeRecvQueue := by
    refine List.filter_eq_self.mpr fun i hi => ?_
    have hmem : i ∈ a.census := by simp [Adapter.census, hi]
    simpa using ne_of_mem_of_not_mem hmem hid
  refine ⟨?_, ?_⟩
  · calc (rtwEnqueueRecvframe a f).census + hand
        = (a.listDelete f.id).census + idsOf [f] + hand := by
          simp only [Adapter.census, rtwEnqueueRecvframe, idsOf_append]
          abel
      _ = a.census + f.id ::ₘ hand := by
          rw [hcensus, idsOf_cons, idsOf_nil, add_assoc, Multiset.cons_add, zero_add]
  · change a.freeRecvframeCnt - ((a.freeRecvQueue.filter (· ≠ f.id)).length : ℤ) = a.surplus
    rw [hfree, Adapter.surplus]

theorem surplus_le_rtwEnqueueRecvframe (a : Adapter) (f : RecvFrame) :
    a.surplus ≤ (rtwEnqueueRecvframe a f).surplus := by
  have hlen := List.length_filter_le (fun i => decide (i ≠ f.id)) a.freeRecvQueue
  simp only [Adapter.surplus, rtwEnqueueRecvframe, Adapter.listDelete]
  omega

theorem surplus_dequeueUcSwdecPending (a : Adapter) :
    (dequeueUcSwdecPending a).2.surplus = a.surplus := by
  unfold dequeueUcSwdecPending
  split <;> rfl

/-! ## `recv_func` -/

/-- The frame that is handled behind `recv_func_prehandle` meets a refusing window: the one that
has come, or the first of those that wait for the key. -/
def passedFault (env : Env) (a : Adapter) (f : RecvFrame) : Bool :=
  if waitsForKey a f then
    let a := rtwEnqueueRecvframe a f
    if a.freeRecvframeCnt < nrRecvframe / 4 then
      match dequeueUcSwdecPending a with
      | (some g, a) => refusedDefrag env.crypto a g
      | (none, _) => false
    else false
  else refusedDefrag env.crypto a f

/-- What `recv_func` does with a frame that has passed keeps the descriptors unless it meets a
refusing window. -/
theorem handlePassed_spec (a : Adapter) (f : RecvFrame) :
    a.surplus ≤ (handlePassed env a f).2.surplus ∧ (Owned a (f.id ::ₘ hand) →
      (passedFault env a f = false → Moves a (f.id ::ₘ hand) (handlePassed env a f).2 hand) ∧
        (passedFault env a f → a.surplus < (handlePassed env a f).2.surplus)) := by
  unfold passedFault handlePassed
  split
  · extract_lets a₁
    have henq : a.surplus ≤ a₁.surplus := surplus_le_rtwEnqueueRecvframe a f
    have hle := henq.trans (surplus_dequeueUcSwdecPending a₁).ge
    have hmoves (h : Owned a (f.id ::ₘ hand)) : Moves a (f.id ::ₘ hand) a₁ hand :=
      rtwEnqueueRecvframe_moves h
    have hdeq : Moves a₁ hand (dequeueUcSwdecPending a₁).2 _ := dequeueUcSwdecPending_moves a₁
    by_cases hcnt : a₁.freeRecvframeCnt < nrRecvframe / 4
    · rw [if_pos hcnt, if_pos hcnt]
      rcases heq : dequeueUcSwdecPending a₁ with ⟨_ | g, a₂⟩
      · rw [heq] at hle hdeq
        rw [taken_none, zero_add] at hdeq
        exact ⟨hle, fun h => ⟨fun _ => (hmoves h).trans hdeq, nofun⟩⟩
      · rw [heq] at hle hdeq
        rw [taken_some, Multiset.singleton_add] at hdeq
        refine ⟨hle.trans (surplus_le_recvFuncPosthandle a₂ g), fun h => ?_⟩
        have hboth := (hmoves h).trans hdeq
        exact ⟨fun hf => hboth.trans (recvFuncPosthandle_moves (hboth.owned h) hf),
          fun hf => hle.trans_lt (surplus_lt_recvFuncPosthandle (hboth.owned h) hf)⟩
    · rw [if_neg hcnt, if_neg hcnt]
      exact ⟨henq, fun h => ⟨fun _ => hmoves h, nofun⟩⟩
  · exact ⟨surplus_le_recvFuncPosthandle a f, fun h =>
      ⟨recvFuncPosthandle_moves h, surplus_lt_recvFuncPosthandle h⟩⟩

/-- The steps of `recv_func`: that of the monitor mode; one for each frame that has waited for the
key, `recv_func_prehandle`, and what it does with a frame that has passed. -/
inductive RecvStep
  | monitor | waiting | prehandle | passed

/-- A step of `recv_func`, on the adapter and on the received frame as long as it is in hand. -/
def recvStep (env : Env) :
    Adapter × Option RecvFrame → RecvStep → Option (Adapter × Option RecvFrame)
  | (a, o), .waiting =>
    match dequeueUcSwdecPending a with
    | (none, a) => some (a, o)
    | (some g, a) => some ((recvFuncPosthandle env a g).2, o)
  | (a, none), _ => some (a, none)
  | (a, some f), .monitor => some (recvFrameMonitor env a f, none)
  | (a, some f), .prehandle =>
    let r := recvFuncPrehandle env a f
    some (r.2.2, if r.1 = .success then some r.2.1 else none)
  | (a, some f), .passed => some ((handlePassed env a f).2, none)

/-- The steps of a call. -/
def recvSteps (a : Adapter) : List RecvStep :=
  if a.fwState.monitor then [.monitor]
  else
    (if a.fwState.station ∧ a.securitypriv.busetkipkey then
      List.replicate a.ucSwdecPendingQueue.length .waiting else []) ++ [.prehandle, .passed]

/-- **The three places**, on the adapter and the frame as they are before the step. -/
def recvFault (env : Env) : Adapter × Option RecvFrame → RecvStep → Bool
  | (a, _), .waiting =>
    match dequeueUcSwdecPending a with
    | (some g, a) => refusedDefrag env.crypto a g
    | (none, _) => false
  | (a, some f), .prehandle => prehandleFault env a f
  | (a, some f), .passed => passedFault env a f
  | _, _ => false

theorem run_waiting (n : ℕ) (a : Adapter) (o : Option RecvFrame) :
    Transition.run (recvStep env) (a, o) (List.replicate n .waiting) =
      some (drainUcSwdec env a n, o) := by
  induction n generalizing a with
  | zero => rfl
  | succ n ih =>
    rw [List.replicate_succ, Transition.run_cons]
    rcases hdeq : dequeueUcSwdecPending a with ⟨_ | g, a₁⟩
    · have hempty : a₁ = a := by
        unfold dequeueUcSwdecPending at hdeq
        split at hdeq
        · exact (Prod.mk.inj hdeq).2.symm
        · cases (Prod.mk.inj hdeq).1
      subst hempty
      refine ⟨(a₁, o), by simp only [recvStep, hdeq], ?_⟩
      rw [ih]
      cases n <;> simp only [drainUcSwdec, hdeq]
    · refine ⟨((recvFuncPosthandle env a₁ g).2, o), by simp only [recvStep, hdeq], ?_⟩
      rw [ih, drainUcSwdec]
      simp only [hdeq]

/-- **`recv_func` is the run of its steps.** -/
theorem recvFunc_eq_run (env : Env) (a : Adapter) (f : RecvFrame) :
    Transition.run (recvStep env) (a, some f) (recvSteps a) =
      some ((recvFunc env a f).2, none) := by
  unfold recvSteps recvFunc
  split
  · rfl
  rw [Transition.run_append]
  refine ⟨(drainOnKey env a, some f), ?_, ?_⟩
  · unfold drainOnKey
    split
    · exact run_waiting _ a _
    · rfl
  · by_cases hret : (recvFuncPrehandle env (drainOnKey env a) f).1 = .success <;>
      simp [Transition.run, recvStep, hret]

/-- The descriptor of a received frame, and of every other frame, ends in one place, and every
descriptor that went to the free list counts once. -/
structure Conserved (a : Adapter) (f : RecvFrame) (a' : Adapter) : Prop where
  census : a'.census = f.id ::ₘ a.census
  nodup : a'.census.Nodup
  freeRecvframeCnt : a'.freeRecvframeCnt = a'.freeRecvQueue.length

theorem recvFrameMonitor_moves (h : Owned a (f.id ::ₘ hand)) :
    Moves a (f.id ::ₘ hand) (recvFrameMonitor env a f) hand := by
  unfold recvFrameMonitor
  extract_lets a₁
  have hkeeps : a.Keeps a₁ := by
    unfold a₁
    split
    · exact emit_keeps a _
    · exact Adapter.Keeps.refl a
  have hmoves : Moves a (f.id ::ₘ hand) a₁ (f.id ::ₘ hand) := hkeeps.moves
  exact hmoves.trans (rtwFreeRecvframe_moves (hmoves.owned h))

theorem surplus_le_recvFrameMonitor (a : Adapter) (f : RecvFrame) :
    a.surplus ≤ (recvFrameMonitor env a f).surplus := by
  refine le_trans ?_ (surplus_le_rtwFreeRecvframe _ _)
  split <;> exact le_rfl

section Steps

variable {w w' : Adapter × Option RecvFrame} {e : RecvStep}

/-- **A step keeps the descriptors unless it meets one of the places**: then it frees a free one. -/
theorem recvStep_spec (hd : env.DispatchKeeps) (hstep : recvStep env w e = some w') :
    w.1.surplus ≤ w'.1.surplus ∧ (Owned w.1 (taken w.2) →
      (recvFault env w e = false → Moves w.1 (taken w.2) w'.1 (taken w'.2)) ∧
        (recvFault env w e → w.1.surplus < w'.1.surplus)) := by
  obtain ⟨a, o⟩ := w
  cases e with
  | waiting =>
    have hle := (surplus_dequeueUcSwdecPending a).ge
    have hdeq : Moves a (taken o) (dequeueUcSwdecPending a).2 _ := dequeueUcSwdecPending_moves a
    simp only [recvStep] at hstep
    simp only [recvFault]
    rcases heq : dequeueUcSwdecPending a with ⟨_ | g, a₁⟩
    · rw [heq] at hle hdeq hstep
      obtain rfl := Option.some.inj hstep
      rw [taken_none, zero_add] at hdeq
      exact ⟨hle, fun _ => ⟨fun _ => hdeq, nofun⟩⟩
    · rw [heq] at hle hdeq hstep
      obtain rfl := Option.some.inj hstep
      rw [taken_some, Multiset.singleton_add] at hdeq
      exact ⟨hle.trans (surplus_le_recvFuncPosthandle a₁ g), fun h =>
        ⟨fun hf => hdeq.trans (recvFuncPosthandle_moves (hdeq.owned h) hf),
          fun hf => hle.trans_lt (surplus_lt_recvFuncPosthandle (hdeq.owned h) hf)⟩⟩
  | monitor =>
    cases o <;> obtain rfl := Option.some.inj hstep
    · exact ⟨le_rfl, fun _ => ⟨fun _ => Ledger.Moves.refl, nofun⟩⟩
    · exact ⟨surplus_le_recvFrameMonitor a _, fun (h : Owned a (_ ::ₘ 0)) =>
        ⟨fun _ => recvFrameMonitor_moves h, nofun⟩⟩
  | prehandle =>
    cases o <;> obtain rfl := Option.some.inj hstep
    · exact ⟨le_rfl, fun _ => ⟨fun _ => Ledger.Moves.refl, nofun⟩⟩
    refine ⟨surplus_le_recvFuncPrehandle hd a _, fun (h : Owned a (_ ::ₘ 0)) =>
      ⟨fun hf => ?_, fun hf => (surplus_lt_recvFuncPrehandle hd h hf).2⟩⟩
    obtain ⟨hid, hmoves⟩ := recvFuncPrehandle_moves hd h hf
    dsimp only
    split
    · next hret =>
      rw [if_pos hret, ← hid] at hmoves
      rw [taken_some, ← hid]
      exact hmoves
    · next hret =>
      rw [if_neg hret] at hmoves
      exact hmoves
  | passed =>
    cases o <;> obtain rfl := Option.some.inj hstep
    · exact ⟨le_rfl, fun _ => ⟨fun _ => Ledger.Moves.refl, nofun⟩⟩
    · exact @handlePassed_spec env 0 a _

/-- The descriptors are where `recv_func` found them, but for the frame in hand. -/
def RecvBalanced (a : Adapter) (f : RecvFrame) (w : Adapter × Option RecvFrame) : Prop :=
  Moves a {f.id} w.1 (taken w.2)

theorem balanced_recvStep (hd : env.DispatchKeeps) (h : Owned a {f.id})
    (hw : RecvBalanced a f w ∨ 0 < w.1.surplus) (hstep : recvStep env w e = some w') :
    (RecvBalanced a f w' ∨ 0 < w'.1.surplus) ∧
      (RecvBalanced a f w' ↔ RecvBalanced a f w ∧ recvFault env w e = false) := by
  have hzero : ∀ {v}, RecvBalanced a f v → v.1.surplus = 0 := fun hv => (hv.owned h).surplus
  obtain ⟨hle, hspec⟩ := recvStep_spec hd hstep
  rcases hw with hw | hw
  · have hspec := hspec (hw.owned h)
    cases hf : recvFault env w e with
    | false =>
      have hw' : RecvBalanced a f w' := hw.trans (hspec.1 hf)
      exact ⟨.inl hw', iff_of_true hw' ⟨hw, rfl⟩⟩
    | true =>
      have hlt := hspec.2 hf
      rw [hzero hw] at hlt
      exact ⟨.inr hlt, iff_of_false (fun hw' => hlt.ne' (hzero hw')) (by simp)⟩
  · have hlt := hw.trans_le hle
    exact ⟨.inr hlt, iff_of_false (fun hw' => hlt.ne' (hzero hw'))
      fun hw' => hw.ne' (hzero hw'.1)⟩

end Steps

/-- **`recv_func` conserves the received frames exactly when none of its steps meets a fault.** -/
theorem recvFunc_conserved_iff (hd : env.DispatchKeeps) (h : Owned a {f.id}) :
    Conserved a f (recvFunc env a f).2 ↔
      Transition.Meets (recvStep env) (fun w e => recvFault env w e = false) (a, some f)
        (recvSteps a) := by
  have hstart : RecvBalanced a f (a, some f) := Ledger.Moves.refl
  have hrun := recvFunc_eq_run env a f
  have hmeets := Transition.run_iff_meets (fun _ _ _ => balanced_recvStep hd h) (.inl hstart) hrun
  rw [and_iff_right hstart] at hmeets
  rw [← hmeets]
  constructor
  · intro hc
    have hzero : (recvFunc env a f).2.surplus = 0 := by
      rw [Adapter.surplus, hc.freeRecvframeCnt, sub_self]
    have hend := Transition.run_invariant
      (fun _ _ _ hw hstep => (balanced_recvStep hd h hw hstep).1) (.inl hstart) hrun
    exact hend.resolve_right fun hlt => hlt.ne' hzero
  · intro hmoves
    have howned := hmoves.owned h
    refine ⟨?_, ?_, ?_⟩
    · have hcensus := hmoves.census
      rw [taken_none, add_zero, add_comm, Multiset.singleton_add] at hcensus
      exact hcensus
    · exact (Multiset.nodup_add.mp howned.nodup).1
    · exact sub_eq_zero.mp howned.surplus

/-! ## A protected deauthentication -/

theorem owned_of_free (huc : a.ucSwdecPendingQueue = []) (hsta : ∀ s, (a.sta s).held = 0)
    (hnodup : ((a.freeRecvQueue : Multiset ℕ) + hand).Nodup)
    (hcnt : a.freeRecvframeCnt = a.freeRecvQueue.length) : Owned a hand := by
  have hcensus : a.census = a.freeRecvQueue := by simp [Adapter.census, huc, hsta]
  refine ⟨?_, ?_⟩
  · change (a.census + hand).Nodup
    rw [hcensus]
    exact hnodup
  · exact sub_eq_zero.mpr hcnt

/-- Ciphers under which no tag is right. -/
def Crypto.wrongKey : Crypto where
  arcfour _ p := p
  getcrc32 _ := [0, 0, 0, 0]
  tkipRc4key _ _ _ := []
  seccalctkipmic _ _ _ _ := []
  aesCcmAd _ _ _ _ _ _ := none
  aesGcmAd _ _ _ _ _ := none
  calculateBipMic _ _ _ _ _ := none

/-- The address of the access point. -/
def apAddr : MacAddr := ⟨0x02, 0, 0, 0, 0, 0x01⟩

/-- The address of the station. -/
def staAddr : MacAddr := ⟨0x02, 0, 0, 0, 0, 0x02⟩

def pmfStation : Adapter where
  macAddr := staAddr
  curBssid := apAddr
  fwState := { asoc := true, station := true }
  securitypriv :=
    { dot11AuthAlgrthm := .dot8021X, dot11PrivacyAlgrthm := .aes, binstallBIPkey := true }
  staHash := [0]
  sta := fun _ => { macAddr := apAddr, mfp := true, dot118021XPrivacy := .aes }
  freeRecvQueue := [1, 2, 3]
  freeRecvframeCnt := 3

/-- A deauthentication from the access point with the given second octet of frame control. -/
def deauthFrame (flags : UInt8) : RecvFrame where
  id := 0
  pkt := some 0
  rxData := [0xc0, flags, 0, 0] ++ staAddr.toBytes ++ apAddr.toBytes ++ apAddr.toBytes ++
    [0x10, 0] ++ List.replicate 18 0

theorem pmfStation_owned : Owned pmfStation {0} :=
  owned_of_free rfl (fun _ => by simp [pmfStation, StaInfo.held]) (by decide) rfl

def Env.wrongKey : Env := { crypto := Crypto.wrongKey }

theorem wrongKey_dispatchKeeps : Env.wrongKey.DispatchKeeps where
  moves _ _ _ _ := Ledger.Moves.refl
  surplus _ _ := le_rfl
  free _ _ := List.Subset.refl _

/-- The unprotected deauthentication is dropped, and its descriptor is free. -/
theorem recvFunc_conserved_deauth :
    Conserved pmfStation (deauthFrame 0) (recvFunc .wrongKey pmfStation (deauthFrame 0)).2 :=
  (recvFunc_conserved_iff wrongKey_dispatchKeeps pmfStation_owned).mpr (by decide +kernel)

/-- The protected deauthentication under a wrong key is freed twice. -/
theorem recvFunc_not_conserved :
    ¬∀ (env : Env) (a : Adapter) (f : RecvFrame), env.DispatchKeeps → Owned a {f.id} →
      Conserved a f (recvFunc env a f).2 := by
  intro h
  have hc := h .wrongKey pmfStation (deauthFrame 0x40) wrongKey_dispatchKeeps
    pmfStation_owned
  have hcnt := hc.freeRecvframeCnt
  revert hcnt
  decide +kernel

end Rtl88x2eu
