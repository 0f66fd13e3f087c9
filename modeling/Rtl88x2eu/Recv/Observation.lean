import Rtl88x2eu.Recv.Conservation

/-!
# What can be observed of the receive path

The outcome of handling a frame: the MSDUs that left, the fragment queues, the reorder windows,
the statistics of the stations and the free descriptors. The functions behind `portctrl` leave the
statistics alone and put nothing into a fragment queue.

## Main definitions

* `Observation`, `Adapter.observe`
* `Adapter.Settles`

## Main results

* `observe_rtwFreeRecvframe`
* `recvIndicatepktReorder_settles`, `recvProcessMpdu_settles`: the tail of the receive path
-/

namespace Rtl88x2eu

variable {env : Env} {a a' : Adapter} {f g : RecvFrame} {id : ℕ} {s : StaId}

def RxEvent.isMsdu : RxEvent → Bool
  | .indicate _ _ | .forward _ => true
  | _ => false

def Adapter.delivered (a : Adapter) : List RxEvent := a.trace.filter RxEvent.isMsdu

/-- The outcome of handling frames. -/
@[ext] structure Observation where
  delivered : List RxEvent
  defragQ : StaId → List RecvFrame
  reorder : StaId × Tid → RecvReorderCtrl
  staStats : StaId → StainfoStats
  freeRecvQueue : Multiset ℕ

def Adapter.observe (a : Adapter) : Observation where
  delivered := a.delivered
  defragQ s := (a.sta s).defragQ
  reorder := a.reorder
  staStats s := (a.sta s).staStats
  freeRecvQueue := a.freeRecvQueue

def Observation.free (o : Observation) (id : ℕ) : Observation where
  delivered := o.delivered
  defragQ s := (o.defragQ s).filter (·.id ≠ id)
  reorder p := { o.reorder p with
    pendingRecvframeQueue := (o.reorder p).pendingRecvframeQueue.filter (·.id ≠ id) }
  staStats := o.staStats
  freeRecvQueue := id ::ₘ o.freeRecvQueue.filter (· ≠ id)

/-- What a free does to the outcome. -/
theorem observe_rtwFreeRecvframe (a : Adapter) (id : ℕ) :
    (rtwFreeRecvframe a id).observe = a.observe.free id := by
  have hfree : ((a.freeRecvQueue.filter (· ≠ id) ++ [id] : List ℕ) : Multiset ℕ) =
      id ::ₘ (a.freeRecvQueue : Multiset ℕ).filter (· ≠ id) := by
    rw [← Multiset.coe_add, add_comm, Multiset.coe_singleton, Multiset.singleton_add,
      Multiset.filter_coe]
  refine Observation.ext rfl rfl rfl rfl ?_
  exact hfree

theorem observe_rtwFreeRecvframe_congr (h : a.observe = a'.observe) (id : ℕ) :
    (rtwFreeRecvframe a id).observe = (rtwFreeRecvframe a' id).observe := by
  rw [observe_rtwFreeRecvframe, observe_rtwFreeRecvframe, h]

@[simp] theorem delivered_emit (a : Adapter) (es : List RxEvent) :
    (a.emit es).delivered = a.delivered ++ es.filter RxEvent.isMsdu := by
  simp [Adapter.delivered, Adapter.emit]

@[simp] theorem delivered_rtwFreeRecvframe (a : Adapter) (id : ℕ) :
    (rtwFreeRecvframe a id).delivered = a.delivered := rfl

@[simp] theorem observe_countDrop (a : Adapter) : a.countDrop.observe = a.observe := rfl

theorem observe_setSta {p : StaInfo} (hdefrag : p.defragQ = (a.sta s).defragQ)
    (hreorder : p.recvreorderCtrl = (a.sta s).recvreorderCtrl)
    (hstats : p.staStats = (a.sta s).staStats) : (a.setSta s p).observe = a.observe := by
  refine Observation.ext rfl (funext fun i => ?_) (funext fun q => ?_) (funext fun i => ?_) rfl
  · by_cases hi : i = s
    · simp only [Adapter.observe, hi, setSta_sta, hdefrag]
    · simp only [Adapter.observe, setSta_sta_of_ne a p hi]
  · by_cases hi : q.1 = s
    · simp only [Adapter.observe, Adapter.reorder, hi, setSta_sta, hreorder]
    · simp only [Adapter.observe, Adapter.reorder, setSta_sta_of_ne a p hi]
  · by_cases hi : i = s
    · simp only [Adapter.observe, hi, setSta_sta, hstats]
    · simp only [Adapter.observe, setSta_sta_of_ne a p hi]

/-! ## What the tail leaves alone -/

/-- The statistics are the same and the fragment queues have not grown. -/
structure Adapter.Settles (a a' : Adapter) : Prop where
  staStats : ∀ s, (a'.sta s).staStats = (a.sta s).staStats
  defragQ : ∀ s, (a'.sta s).defragQ.Sublist (a.sta s).defragQ

namespace Adapter.Settles

theorem refl (a : Adapter) : a.Settles a := ⟨fun _ => rfl, fun _ => List.Sublist.refl _⟩

theorem trans {a'' : Adapter} (h : a.Settles a') (h' : a'.Settles a'') : a.Settles a'' :=
  ⟨fun s => (h'.staStats s).trans (h.staStats s), fun s => (h'.defragQ s).trans (h.defragQ s)⟩

theorem defragQ_eq_nil (h : a.Settles a') (hq : (a.sta s).defragQ = []) :
    (a'.sta s).defragQ = [] :=
  List.sublist_nil.mp (hq ▸ h.defragQ s)

end Adapter.Settles

theorem rtwFreeRecvframe_settles (a : Adapter) (id : ℕ) : a.Settles (rtwFreeRecvframe a id) :=
  ⟨fun _ => rfl, fun _ => List.filter_sublist⟩

theorem emit_settles (a : Adapter) (es : List RxEvent) : a.Settles (a.emit es) :=
  ⟨fun _ => rfl, fun _ => List.Sublist.refl _⟩

theorem countDrop_settles (a : Adapter) : a.Settles a.countDrop :=
  ⟨fun _ => rfl, fun _ => List.Sublist.refl _⟩

theorem noteGrpkey_settles (a : Adapter) (micOk : Bool) (p : RxPktAttrib) :
    a.Settles (a.noteGrpkey micOk p) := by
  unfold Adapter.noteGrpkey
  split <;> exact ⟨fun _ => rfl, fun _ => List.Sublist.refl _⟩

theorem setSta_settles {p : StaInfo} (hstats : p.staStats = (a.sta s).staStats)
    (hdefrag : p.defragQ = (a.sta s).defragQ) : a.Settles (a.setSta s p) := by
  refine ⟨fun i => ?_, fun i => ?_⟩
  · by_cases hi : i = s
    · rw [hi, setSta_sta, hstats]
    · rw [setSta_sta_of_ne a p hi]
  · by_cases hi : i = s
    · rw [hi, setSta_sta, hdefrag]
    · rw [setSta_sta_of_ne a p hi]

theorem setReorder_settles (a : Adapter) (p : StaId × Tid) (c : RecvReorderCtrl) :
    a.Settles (a.setReorder p c) :=
  setSta_settles rfl rfl

theorem recvProcessMpdu_settles (a : Adapter) (f : RecvFrame) :
    a.Settles (recvProcessMpdu env a f).2 := by
  obtain ⟨es, hes⟩ := recvProcessMpdu_eq_free env a f
  rw [hes]
  exact (emit_settles a es).trans (rtwFreeRecvframe_settles (a.emit es) f.id)

theorem processMpdus_settles (a : Adapter) (fs : List RecvFrame) :
    a.Settles (processMpdus env a fs) := by
  induction fs generalizing a with
  | nil => exact Adapter.Settles.refl a
  | cons f fs ih => exact (recvProcessMpdu_settles a f).trans (ih _)

theorem recvIndicatepktReorder_settles (a : Adapter) (f : RecvFrame) :
    a.Settles (recvIndicatepktReorder env a f).2 := by
  unfold recvIndicatepktReorder
  split
  · exact Adapter.Settles.refl a
  · next ctrl _ => exact (setReorder_settles a ctrl _).trans (processMpdus_settles _ _)

theorem setIseq_settles (a : Adapter) (f : RecvFrame) (iseq : ℕ → ℕ) :
    a.Settles (setIseq a f iseq) := by
  unfold setIseq
  split
  · exact Adapter.Settles.refl a
  · exact setReorder_settles a _ _

theorem posthandleIndicate_settles (a : Adapter) (f g : RecvFrame) :
    (countRxStats a g none).Settles (posthandleIndicate env a f g).2 := by
  have hreorder := @recvIndicatepktReorder_settles env (countRxStats a g none) g
  unfold posthandleIndicate
  extract_lets a₁
  split
  · next a₂ heq =>
    rw [heq] at hreorder
    exact (hreorder.trans (rtwFreeRecvframe_settles a₂ f.id)).trans (countDrop_settles _)
  · next a₂ heq =>
    rw [heq] at hreorder
    exact hreorder
  · next a₂ heq =>
    rw [heq] at hreorder
    extract_lets a₃ r a₄
    have hset : (countRxStats a g none).Settles a₃ := hreorder.trans (setIseq_settles a₂ g _)
    have hmpdu := hset.trans (@recvProcessMpdu_settles env a₃ g)
    have hset' : (countRxStats a g none).Settles a₄ := hmpdu.trans (setIseq_settles r.2 g _)
    dsimp only
    split
    · exact hset'.trans (countDrop_settles a₄)
    · exact hset'

theorem defragQ_rtwFreeRecvframeQueue {q : List RecvFrame} (h : (a.sta s).defragQ ⊆ q) :
    ((rtwFreeRecvframeQueue a q).sta s).defragQ = [] := by
  induction q generalizing a with
  | nil => exact List.subset_nil.mp h
  | cons g q ih =>
    refine ih (a := rtwFreeRecvframe a g.id) fun x hx => ?_
    obtain ⟨hx, hne⟩ := List.mem_filter.mp hx
    obtain rfl | hq := List.mem_cons.mp (h hx)
    · simp at hne
    · exact hq

theorem recvframeDefrag_defragQ (a : Adapter) (s : StaId) :
    ((recvframeDefrag a s).2.sta s).defragQ = [] := by
  unfold recvframeDefrag
  split
  · next hq => exact hq
  · next first rest hq =>
    extract_lets a₁ curPn
    have hset : (a₁.sta s).defragQ = rest := by simp [a₁, Adapter.setDefragQ]
    split
    · exact defragQ_rtwFreeRecvframeQueue (hset ▸ List.Subset.refl _)
    · refine defragQ_rtwFreeRecvframeQueue fun x hx => ?_
      rw [← hset]
      exact (List.mem_filter.mp hx).1

theorem mem_defragQ_rtwFreeRecvframe (h : g ∈ (a.sta s).defragQ) (hid : g.id ≠ id) :
    g ∈ ((rtwFreeRecvframe a id).sta s).defragQ :=
  List.mem_filter.mpr ⟨h, by simpa using hid⟩

theorem mem_defragQ_processMpdus {fs : List RecvFrame} (h : g ∈ (a.sta s).defragQ)
    (hid : g.id ∉ idsOf fs) : g ∈ ((processMpdus env a fs).sta s).defragQ := by
  induction fs generalizing a with
  | nil => exact h
  | cons f fs ih =>
    rw [idsOf_cons, Multiset.mem_cons, not_or] at hid
    obtain ⟨es, hes⟩ := recvProcessMpdu_eq_free env a f
    have hmem : g ∈ ((recvProcessMpdu env a f).2.sta s).defragQ := by
      rw [hes]
      exact mem_defragQ_rtwFreeRecvframe (a := a.emit es) h hid.1
    exact ih hmem hid.2

theorem mem_freeRecvQueue_processMpdus_of_mem {fs : List RecvFrame} (h : id ∈ a.freeRecvQueue) :
    id ∈ (processMpdus env a fs).freeRecvQueue := by
  induction fs generalizing a with
  | nil => exact h
  | cons f fs ih =>
    obtain ⟨es, hes⟩ := recvProcessMpdu_eq_free env a f
    have hmem : id ∈ (recvProcessMpdu env a f).2.freeRecvQueue := by
      rw [hes]
      exact mem_freeRecvQueue_of_mem (a := a.emit es) f.id h
    exact ih hmem

theorem mem_freeRecvQueue_processMpdus {fs : List RecvFrame} (h : f ∈ fs) :
    f.id ∈ (processMpdus env a fs).freeRecvQueue := by
  induction fs generalizing a with
  | nil => simp at h
  | cons g fs ih =>
    obtain rfl | hfs := List.mem_cons.mp h
    · obtain ⟨es, hes⟩ := recvProcessMpdu_eq_free env a f
      have hmem : f.id ∈ (recvProcessMpdu env a f).2.freeRecvQueue := by
        rw [hes]
        exact mem_freeRecvQueue_rtwFreeRecvframe (a.emit es) f.id
      exact @mem_freeRecvQueue_processMpdus_of_mem env _ _ fs hmem
    · exact ih hfs

/-- Handing frames on leaves a window where it is. -/
theorem processMpdus_reorder (a : Adapter) (fs : List RecvFrame) (p : StaId × Tid) :
    ∃ q, (processMpdus env a fs).reorder p = { a.reorder p with pendingRecvframeQueue := q } := by
  induction fs generalizing a with
  | nil => exact ⟨_, rfl⟩
  | cons f fs ih =>
    obtain ⟨es, hes⟩ := recvProcessMpdu_eq_free env a f
    obtain ⟨q, hq⟩ := ih (recvProcessMpdu env a f).2
    refine ⟨q, hq.trans ?_⟩
    rw [hes]
    rfl

end Rtl88x2eu
