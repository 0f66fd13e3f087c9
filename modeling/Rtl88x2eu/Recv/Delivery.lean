import Rtl88x2eu.Recv.Observation

/-!
# Frames that are taken up

What `recv_func_posthandle` makes of one frame: it is delivered, it waits for delivery in a
fragment queue or a reorder window, or it is given up. A last fragment is delivered in the
descriptor of the first.

## Main definitions

* `handsOut`, `Adapter.Delivers`: MSDUs of a descriptor leave the receive path
* `Adapter.Recedes`, `TakesUp`, `posthandleTakes`, `Adapter.HandsOnce`

## Main results

* `posthandle_takesUp_iff`
-/

namespace Rtl88x2eu

variable {env : Env} {a a' : Adapter} {f g : RecvFrame} {id : ℕ} {s : StaId} {hand : Multiset ℕ}

/-! ## What leaves the receive path -/

/-- An MSDU follows the `process` event of a descriptor; `cur` says that the events so far end in
its processing. -/
def handsOut (id : ℕ) : Bool → List RxEvent → Bool
  | _, [] => false
  | _, .process g :: es => handsOut id (g.id = id) es
  | cur, .indicate _ _ :: es => cur || handsOut id cur es
  | cur, .forward _ :: es => cur || handsOut id cur es
  | cur, .monitor _ :: es => handsOut id cur es
  | cur, .defrag _ :: es => handsOut id cur es

theorem handsOut_msdus (cur : Bool) {ds : List RxEvent} (h : ∀ e ∈ ds, e.isMsdu)
    (es : List RxEvent) :
    handsOut id cur (ds ++ es) = (cur && !ds.isEmpty || handsOut id cur es) := by
  induction ds with
  | nil => simp
  | cons e ds ih =>
    have he := h e (by simp)
    have ih := ih fun d hd => h d (List.mem_cons_of_mem _ hd)
    cases e with
    | indicate pkt msdu => cases cur <;> simp [handsOut, ih]
    | forward msdu => cases cur <;> simp [handsOut, ih]
    | _ => simp [RxEvent.isMsdu] at he

theorem handsOut_defrags (cur : Bool) (fs : List RecvFrame) (es : List RxEvent) :
    handsOut id cur (fs.map .defrag ++ es) = handsOut id cur es := by
  induction fs with
  | nil => rfl
  | cons f fs ih => simpa [handsOut] using ih

/-- MSDUs of a descriptor leave the receive path. -/
def Adapter.Delivers (a a' : Adapter) (id : ℕ) : Prop :=
  ∃ es, a'.trace = a.trace ++ es ∧ handsOut id false es

theorem delivers_iff {es : List RxEvent} (h : a'.trace = a.trace ++ es) :
    a.Delivers a' id ↔ handsOut id false es := by
  refine ⟨fun ⟨es', hes', hout⟩ => ?_, fun hout => ⟨es, h, hout⟩⟩
  obtain rfl := List.append_cancel_left (hes'.symm.trans h)
  exact hout

/-- The body that `amsdu_to_msdu` walks over. -/
def amsduBody (f : RecvFrame) : Bytes :=
  let g := recvframePull f f.attrib.hdrlen
  let g := if 0 < f.attrib.ivLen then recvframePull g f.attrib.ivLen else g
  (if f.attrib.encrypt ≠ .noPrivacy then recvframePullTail g f.attrib.icvLen else g).rxData

/-- What `recv_process_mpdu` asks of an MPDU: an A-MSDU has a subframe that goes to the stack or is
forwarded; any other frame has room for the Ethernet header, and it is forwarded with memory for a
copy, or goes to a stack that runs. -/
def mpduHandsOn (env : Env) (a : Adapter) (f : RecvFrame) : Bool :=
  let a := a.emit [.process f]
  if f.attrib.amsdu then
    let p := amsduBody f
    let r := amsduSubframes env a f p.length p {}
    !(r.forwarded.isEmpty && r.subframes.isEmpty)
  else
    let start := f.attrib.hdrlen + f.attrib.ivLen
    let icv := if f.attrib.encrypt ≠ .noPrivacy then f.attrib.icvLen else 0
    let llc := rtwRecvLlcParse (f.rxData.drop start) (u16 ((f.len : ℤ) - start - icv))
    let act := if a.fwState.ap then rtwApRxMsduActCheck env a f.attrib.dst f.attrib.src
      else ⟨true, false⟩
    (wlanhdrToEthhdr f llc).isSome &&
      (act.forward && (!act.indicate || env.pktCopy a f) ||
        act.indicate && !a.cannotRun && f.pkt.isSome)

/-- An MPDU among those that are handed over hands something on when its turn comes. -/
def mpdusHandOn (env : Env) (id : ℕ) : Adapter → List RecvFrame → Bool
  | _, [] => false
  | a, f :: fs =>
    f.id = id && mpduHandsOn env a f || mpdusHandOn env id (recvProcessMpdu env a f).2 fs

theorem recvFwdPktHdl_isMsdu {act : MsduAct} {msdu : Bytes} {e : RxEvent}
    (h : e ∈ recvFwdPktHdl env a f act msdu) : e.isMsdu := by
  unfold recvFwdPktHdl at h
  split at h
  · simp at h
  · obtain rfl := List.mem_singleton.mp h
    rfl

theorem amsduSubframes_isMsdu (n : ℕ) (p : Bytes) (acc : Subframes)
    (h : ∀ e ∈ acc.forwarded, e.isMsdu) :
    ∀ e ∈ (amsduSubframes env a f n p acc).forwarded, e.isMsdu := by
  induction n generalizing p acc with
  | zero => exact h
  | succ n ih =>
    intro e he
    unfold amsduSubframes at he
    extract_lets len da sa msdu llc act rest padding next pkt fwd at he
    have hnext : ∀ acc' : Subframes, (∀ d ∈ acc'.forwarded, d.isMsdu) →
        ∀ d ∈ (next acc').forwarded, d.isMsdu := by
      intro acc' hacc' d hd
      unfold next at hd
      split_ifs at hd
      · exact hacc' d hd
      · exact hacc' d hd
      · exact hacc' d hd
      · exact ih _ acc' hacc' d hd
    split at he
    · exact h e he
    split at he
    · exact h e he
    split at he
    · exact hnext acc h e he
    split at he
    · exact h e he
    · refine hnext _ (fun d hd => ?_) e he
      obtain hd | hd := List.mem_append.mp hd
      · exact h d hd
      · unfold fwd at hd
        split at hd
        · exact recvFwdPktHdl_isMsdu hd
        · simp at hd

theorem recvProcessMpdu_events (env : Env) (a : Adapter) (f : RecvFrame) :
    ∃ ds, (∀ e ∈ ds, e.isMsdu) ∧ mpduHandsOn env a f = !ds.isEmpty ∧
      (recvProcessMpdu env a f).2 = rtwFreeRecvframe (a.emit (.process f :: ds)) f.id := by
  unfold recvProcessMpdu mpduHandsOn
  extract_lets a₁ p r start icv llc act msduLen llc'
  have hllc : llc' = llc := rfl
  simp only [hllc]
  cases hamsdu : f.attrib.amsdu with
  | true =>
    simp only [if_true]
    unfold amsduToMsdu
    extract_lets g₁ g₂ g₃ r' events
    have hr : r' = r := rfl
    refine ⟨events, fun e he => ?_, ?_, by rw [emit_emit]; rfl⟩
    · obtain he | he := List.mem_append.mp he
      · exact amsduSubframes_isMsdu _ _ {} (by simp) e he
      · obtain ⟨msdu, -, rfl⟩ := List.mem_map.mp he
        rfl
    · unfold events
      rw [hr]
      cases r.forwarded <;> cases r.subframes <;> rfl
  | false =>
    simp only [Bool.false_eq_true, if_false]
    split
    · next hact => exact ⟨[], by simp, by simp [hact], rfl⟩
    split
    · next heth => exact ⟨[], by simp, by simp [heth], rfl⟩
    · next msdu heth =>
      obtain ⟨fwd, hfwd⟩ :
          ∃ fwd, (if act.forward then recvFwdPktHdl env a₁ f act msdu else []) = fwd := ⟨_, rfl⟩
      have hmsdu : ∀ e ∈ fwd, e.isMsdu := by
        intro e he
        rw [← hfwd] at he
        split at he
        · exact recvFwdPktHdl_isMsdu he
        · simp at he
      have hforward : (act.forward && (!act.indicate || env.pktCopy a₁ f)) = !fwd.isEmpty := by
        rw [← hfwd]
        unfold recvFwdPktHdl
        cases act.forward <;> cases act.indicate <;> cases env.pktCopy a₁ f <;> rfl
      have hemit : a₁.emit fwd = a.emit (.process f :: fwd) := emit_emit a _ _
      have hrun : (a₁.emit fwd).cannotRun = a₁.cannotRun := rfl
      rw [hfwd, hforward, hrun, hemit]
      cases hind : act.indicate with
      | false => exact ⟨fwd, hmsdu, by simp [heth], rfl⟩
      | true =>
        cases hstop : a₁.cannotRun with
        | true => exact ⟨fwd, hmsdu, by simp [heth], rfl⟩
        | false =>
          cases hpkt : f.pkt with
          | none => exact ⟨fwd, hmsdu, by simp [heth], rfl⟩
          | some pkt =>
            refine ⟨fwd ++ [.indicate (some pkt) msdu], fun e he => ?_, by simp [heth], ?_⟩
            · obtain he | he := List.mem_append.mp he
              · exact hmsdu e he
              · obtain rfl := List.mem_singleton.mp he
                rfl
            · simp only [Bool.not_true, Bool.false_eq_true, if_false]
              rw [emit_emit]
              rfl

theorem processMpdus_trace (env : Env) (id : ℕ) (a : Adapter) (fs : List RecvFrame) :
    ∃ es, (processMpdus env a fs).trace = a.trace ++ es ∧
      ∀ cur, handsOut id cur es = mpdusHandOn env id a fs := by
  induction fs generalizing a with
  | nil => exact ⟨[], (List.append_nil _).symm, fun _ => rfl⟩
  | cons f fs ih =>
    obtain ⟨ds, hds, hdel, hproc⟩ := recvProcessMpdu_events env a f
    obtain ⟨es, hes, hout⟩ := ih (recvProcessMpdu env a f).2
    have htrace : (recvProcessMpdu env a f).2.trace = a.trace ++ .process f :: ds := by
      rw [hproc]
      rfl
    refine ⟨.process f :: ds ++ es, ?_, fun cur => ?_⟩
    · rw [← List.append_assoc, ← htrace]
      exact hes
    · rw [mpdusHandOn, ← hout (f.id = id), hdel]
      exact handsOut_msdus _ hds es

/-! ## What gives a frame up -/

/-- Nothing is handed on, and no queue has grown. -/
structure Adapter.Recedes (a a' : Adapter) : Prop where
  trace : ∃ fs : List RecvFrame, a'.trace = a.trace ++ fs.map .defrag
  window : ∀ p, (a'.reorder p).pendingRecvframeQueue.Sublist (a.reorder p).pendingRecvframeQueue
  defragQ : ∀ s, (a'.sta s).defragQ.Sublist (a.sta s).defragQ

namespace Adapter.Recedes

theorem refl (a : Adapter) : a.Recedes a :=
  ⟨⟨[], (List.append_nil _).symm⟩, fun _ => List.Sublist.refl _, fun _ => List.Sublist.refl _⟩

theorem trans {a'' : Adapter} (h : a.Recedes a') (h' : a'.Recedes a'') : a.Recedes a'' := by
  obtain ⟨fs, hfs⟩ := h.trace
  obtain ⟨fs', hfs'⟩ := h'.trace
  refine ⟨⟨fs ++ fs', ?_⟩, fun p => (h'.window p).trans (h.window p),
    fun s => (h'.defragQ s).trans (h.defragQ s)⟩
  rw [hfs', hfs, List.map_append, List.append_assoc]

theorem of_eq (htrace : a'.trace = a.trace) (hsta : a'.sta = a.sta) : a.Recedes a' :=
  ⟨⟨[], by simp [htrace]⟩, fun p => by simp [Adapter.reorder, hsta], fun s => by simp [hsta]⟩

end Adapter.Recedes

theorem setSta_recedes {p : StaInfo} (hdefrag : p.defragQ.Sublist (a.sta s).defragQ)
    (hwindow : ∀ t, (p.recvreorderCtrl t).pendingRecvframeQueue =
      ((a.sta s).recvreorderCtrl t).pendingRecvframeQueue) : a.Recedes (a.setSta s p) := by
  refine ⟨⟨[], (List.append_nil _).symm⟩, fun q => ?_, fun i => ?_⟩
  · by_cases hi : q.1 = s
    · simp only [Adapter.reorder, hi, setSta_sta, hwindow]
      exact List.Sublist.refl _
    · simp only [Adapter.reorder, setSta_sta_of_ne a p hi]
      exact List.Sublist.refl _
  · by_cases hi : i = s
    · rw [hi, setSta_sta]
      exact hdefrag
    · rw [setSta_sta_of_ne a p hi]

theorem setReorder_recedes {p : StaId × Tid} {c : RecvReorderCtrl}
    (h : c.pendingRecvframeQueue = (a.reorder p).pendingRecvframeQueue) :
    a.Recedes (a.setReorder p c) := by
  refine setSta_recedes (List.Sublist.refl _) fun t => ?_
  by_cases ht : t = p.2
  · rw [ht, setReorder_recvreorderCtrl, h]
    rfl
  · rw [setReorder_recvreorderCtrl_of_ne _ c ht]

theorem rtwFreeRecvframe_recedes (a : Adapter) (id : ℕ) : a.Recedes (rtwFreeRecvframe a id) :=
  ⟨⟨[], (List.append_nil _).symm⟩, fun _ => List.filter_sublist, fun _ => List.filter_sublist⟩

theorem rtwFreeRecvframeQueue_recedes (a : Adapter) (q : List RecvFrame) :
    a.Recedes (rtwFreeRecvframeQueue a q) := by
  induction q generalizing a with
  | nil => exact Adapter.Recedes.refl a
  | cons f q ih => exact (rtwFreeRecvframe_recedes a f.id).trans (ih _)

theorem countRxStats_recedes (a : Adapter) (f : RecvFrame) (sta : Option StaId) :
    a.Recedes (countRxStats a f sta) := by
  unfold countRxStats
  extract_lets a₁
  have hbytes : a.Recedes a₁ := Adapter.Recedes.of_eq rfl rfl
  split
  · exact hbytes
  · exact hbytes.trans (setSta_recedes (List.Sublist.refl _) fun _ => rfl)

theorem decryptor_recedes (crypto : Crypto) (a : Adapter) (f : RecvFrame) :
    a.Recedes (decryptor crypto a f).2 := by
  obtain ⟨hw, ⟨d, k, hdec⟩ | hdec⟩ := decryptor_cases crypto a f
  · rw [hdec]
    exact Adapter.Recedes.of_eq rfl rfl
  · rw [hdec]
    have hset : a.Recedes (a.setHwDecrypted hw) := Adapter.Recedes.of_eq rfl rfl
    exact hset.trans (rtwFreeRecvframe_recedes _ f.id)

theorem recvframeChkmic_recedes (crypto : Crypto) (a : Adapter) (f : RecvFrame) :
    a.Recedes (recvframeChkmic crypto a f).2.2 := by
  unfold recvframeChkmic
  split
  · exact Adapter.Recedes.refl a
  split
  · exact Adapter.Recedes.refl a
  split
  · exact Adapter.Recedes.refl a
  · extract_lets
    unfold Adapter.noteGrpkey
    split <;> exact Adapter.Recedes.of_eq rfl rfl

theorem recvframeDefrag_recedes (a : Adapter) (s : StaId) :
    a.Recedes (recvframeDefrag a s).2 := by
  unfold recvframeDefrag
  split
  · exact Adapter.Recedes.refl a
  · next first rest hq =>
    have hset : a.Recedes (a.setDefragQ s rest) :=
      setSta_recedes (by simp [hq]) fun _ => rfl
    dsimp only
    split
    · exact hset.trans (rtwFreeRecvframeQueue_recedes _ _)
    · exact (hset.trans (rtwFreeRecvframe_recedes _ _)).trans (rtwFreeRecvframeQueue_recedes _ _)

def mpduIds (a : Adapter) (f : RecvFrame) : Set ℕ :=
  {id | id = f.id ∨ ∃ s, id ∈ idsOf (a.sta s).defragQ}

theorem recvframeDefrag_id (h : (recvframeDefrag a s).1 = some g) :
    g.id ∈ idsOf (a.sta s).defragQ := by
  unfold recvframeDefrag at h
  split at h
  · simp at h
  · next first rest hq =>
    dsimp only at h
    split at h
    · next g' hg =>
      obtain rfl := Option.some.inj h
      split at hg
      · rw [hq, idsOf_cons, defragLoop_id hg]
        exact Multiset.mem_cons_self _ _
      · simp at hg
    · simp at h

theorem chkDefragQueue_recedes (h : queuesFragment a f = false) :
    a.Recedes (chkDefragQueue a f).2 ∧
      ∀ g, (chkDefragQueue a f).1 = some g → g.id ∈ mpduIds a f := by
  unfold chkDefragQueue
  split
  · refine ⟨Adapter.Recedes.refl a, fun g hg => ?_⟩
    obtain rfl := Option.some.inj hg
    exact Or.inl rfl
  split
  · exact ⟨rtwFreeRecvframe_recedes a f.id, fun _ hg => nomatch hg⟩
  split
  · exact ⟨rtwFreeRecvframe_recedes a f.id, fun _ hg => nomatch hg⟩
  · next _ hmcast _ s hsta =>
    have hmfrag : f.attrib.mfrag = false := by simpa [queuesFragment, hmcast, hsta] using h
    unfold queueDefrag
    rw [if_neg (by simpa [RecvFrame.setKeytrack] using hmfrag)]
    generalize hf₁ : f.setKeytrack (a.sta s).keytrack = f₁
    have hid : f₁.id = f.id := by rw [← hf₁]; rfl
    have hsta₁ : ∀ t, t ≠ s → (a.queueFragment s f₁).sta t = a.sta t := fun t ht =>
      setSta_sta_of_ne a _ ht
    have hq₁ : ((a.queueFragment s f₁).sta s).defragQ = (a.sta s).defragQ ++ [f₁] := by
      simp [Adapter.queueFragment, Adapter.setDefragQ, Adapter.emit]
    have hdefrag := recvframeDefrag_recedes (a.queueFragment s f₁) s
    refine ⟨⟨?_, fun p => ?_, fun t => ?_⟩, fun g hg => ?_⟩
    · obtain ⟨fs, hfs⟩ := hdefrag.trace
      refine ⟨f₁ :: fs, ?_⟩
      rw [hfs]
      simp [Adapter.queueFragment, Adapter.setDefragQ, Adapter.setSta, Adapter.emit]
    · refine (hdefrag.window p).trans ?_
      have hset : a.Recedes (a.setSta s (a.sta s)) :=
        setSta_recedes (List.Sublist.refl _) fun _ => rfl
      have hreorder : (a.queueFragment s f₁).reorder p = a.reorder p := by
        by_cases hp : p.1 = s
        · simp [Adapter.reorder, Adapter.queueFragment, Adapter.setDefragQ, Adapter.emit, hp]
        · simp only [Adapter.reorder, hsta₁ p.1 hp]
      rw [hreorder]
    · by_cases ht : t = s
      · rw [ht, recvframeDefrag_defragQ]
        exact List.nil_sublist _
      · have hsub := hdefrag.defragQ t
        rwa [hsta₁ t ht] at hsub
    · have hmem := recvframeDefrag_id hg
      rw [hq₁, idsOf_append, Multiset.mem_add] at hmem
      obtain hmem | hmem := hmem
      · exact Or.inr ⟨s, hmem⟩
      · exact Or.inl (by simpa [hid] using hmem)

theorem recvframeChkDefrag_recedes (crypto : Crypto) (h : queuesFragment a f = false) :
    a.Recedes (recvframeChkDefrag crypto a f).2 ∧
      ∀ g, (recvframeChkDefrag crypto a f).1 = some g → g.id ∈ mpduIds a f := by
  obtain ⟨hqueue, hid⟩ := chkDefragQueue_recedes h
  unfold recvframeChkDefrag
  split
  · next heq =>
    rw [heq] at hqueue
    exact ⟨hqueue, fun _ hg => nomatch hg⟩
  · next g a₁ heq =>
    rw [heq] at hqueue hid
    have hmic := hqueue.trans (recvframeChkmic_recedes crypto a₁ g)
    have hmicId := recvframeChkmic_id crypto a₁ g
    split
    · split
      · next heq' =>
        rw [heq'] at hmic hmicId
        refine ⟨hmic, fun g' hg' => ?_⟩
        obtain rfl := Option.some.inj hg'
        exact hmicId ▸ hid g rfl
      · next heq' =>
        rw [heq'] at hmic
        exact ⟨hmic.trans (rtwFreeRecvframe_recedes _ _), fun _ hg => nomatch hg⟩
    · exact ⟨hqueue, hid⟩

theorem recvframeChkDefrag_trace (crypto : Crypto) (a : Adapter) (f : RecvFrame) :
    ∃ qs : List RecvFrame, (recvframeChkDefrag crypto a f).2.trace = a.trace ++ qs.map .defrag := by
  cases hq : queuesFragment a f with
  | false => exact (recvframeChkDefrag_recedes crypto hq).1.trace
  | true =>
    -- a fragment that is queued
    simp only [queuesFragment, Bool.and_eq_true, Bool.not_eq_true', Option.isSome_iff_exists] at hq
    obtain ⟨⟨hmfrag, hmcast⟩, s, hsta⟩ := hq
    obtain ⟨qs, hqs⟩ := (rtwFreeRecvframeQueue_recedes a (a.sta s).defragQ).trace
    have hqueue : recvframeChkDefrag crypto a f =
        queueDefrag a s (f.setKeytrack (a.sta s).keytrack) := by
      simp [recvframeChkDefrag, chkDefragQueue, queueDefrag, hmfrag, hmcast, hsta,
        RecvFrame.setKeytrack]
    rw [hqueue, queueDefrag, if_pos (by simpa [RecvFrame.setKeytrack] using hmfrag)]
    dsimp only
    split
    · refine ⟨qs ++ [f.setKeytrack (a.sta s).keytrack], ?_⟩
      change (rtwFreeRecvframeQueue a (a.sta s).defragQ).trace ++ _ = _
      rw [hqs, List.map_append, List.append_assoc]
      rfl
    · exact ⟨[f.setKeytrack (a.sta s).keytrack], rfl⟩

/-! ## Taking a frame up -/

/-- A frame is delivered or queued for delivery. -/
def TakesUp (a a' : Adapter) (f : RecvFrame) : Prop :=
  (∃ s, f.id ∈ idsOf (a'.sta s).defragQ) ∨ ∃ id ∈ mpduIds a f,
    a.Delivers a' id ∨ ∃ p, id ∈ idsOf (a'.reorder p).pendingRecvframeQueue

theorem notMem_window_of_mpduIds (h : Owned a (f.id ::ₘ hand)) (hid : id ∈ mpduIds a f)
    (p : StaId × Tid) : id ∉ idsOf (a.reorder p).pendingRecvframeQueue := by
  obtain rfl | ⟨s, hs⟩ := hid
  · exact fun hmem => h.notMem (Multiset.mem_of_le (window_le_census a p) hmem)
  · exact notMem_window_of_mem_defragQ h hs p

theorem idsOf_subset {q q' : List RecvFrame} (h : q.Sublist q') : idsOf q ⊆ idsOf q' := by
  intro i hi
  exact (h.map RecvFrame.id).subset hi

theorem queue_processMpdus (env : Env) (a : Adapter) (fs : List RecvFrame) (p : StaId × Tid) :
    ((processMpdus env a fs).reorder p).pendingRecvframeQueue =
      (a.reorder p).pendingRecvframeQueue.filter (·.id ∉ idsOf fs) := by
  induction fs generalizing a with
  | nil => simp [processMpdus]
  | cons f fs ih =>
    obtain ⟨es, hes⟩ := recvProcessMpdu_eq_free env a f
    have hfree : ((recvProcessMpdu env a f).2.reorder p).pendingRecvframeQueue =
        (a.reorder p).pendingRecvframeQueue.filter (·.id ≠ f.id) := by
      rw [hes]
      rfl
    refine (ih (recvProcessMpdu env a f).2).trans ?_
    rw [hfree, List.filter_filter]
    refine List.filter_congr fun x _ => ?_
    simp [Bool.and_comm]

theorem mem_of_mpdusHandOn {fs : List RecvFrame} (h : mpdusHandOn env id a fs) :
    id ∈ idsOf fs := by
  induction fs generalizing a with
  | nil => simp [mpdusHandOn] at h
  | cons f fs ih =>
    simp only [mpdusHandOn, Bool.or_eq_true, Bool.and_eq_true, decide_eq_true_eq] at h
    rw [idsOf_cons, Multiset.mem_cons]
    obtain ⟨rfl, -⟩ | h := h
    · exact Or.inl rfl
    · exact Or.inr (ih h)

/-- The end of a frame whose MPDU is `g`, when MPDUs are handed on and the windows hold it and
what they held. -/
theorem takesUp_processMpdus {a₁ : Adapter} {fs : List RecvFrame} (h : Owned a (f.id ::ₘ hand))
    (hg : g.id ∈ mpduIds a f) (htrace : ∃ qs : List RecvFrame, a₁.trace = a.trace ++ qs.map .defrag)
    (hdefrag : ∀ s, (a₁.sta s).defragQ.Sublist (a.sta s).defragQ)
    (hwindow : ∀ p, ∀ i ∈ idsOf (a₁.reorder p).pendingRecvframeQueue,
      i = g.id ∨ i ∈ idsOf (a.reorder p).pendingRecvframeQueue)
    (hfs : ∀ i ∈ idsOf fs, i = g.id ∨ ∃ p, i ∈ idsOf (a.reorder p).pendingRecvframeQueue) :
    TakesUp a (processMpdus env a₁ fs) f ↔ mpdusHandOn env g.id a₁ fs ∨
      ∃ p, g.id ∈ idsOf (a₁.reorder p).pendingRecvframeQueue ∧ g.id ∉ idsOf fs := by
  obtain ⟨qs, hqs⟩ := htrace
  have hdelivers : ∀ i, a.Delivers (processMpdus env a₁ fs) i ↔ mpdusHandOn env i a₁ fs := by
    intro i
    obtain ⟨es, hes, hout⟩ := processMpdus_trace env i a₁ fs
    rw [hqs, List.append_assoc] at hes
    rw [delivers_iff hes, handsOut_defrags, hout]
  have hqueue : ∀ p i, i ∈ idsOf ((processMpdus env a₁ fs).reorder p).pendingRecvframeQueue ↔
      i ∈ idsOf (a₁.reorder p).pendingRecvframeQueue ∧ i ∉ idsOf fs := by
    intro p i
    rw [queue_processMpdus]
    simp only [idsOf, Multiset.mem_coe, List.mem_map, List.mem_filter, decide_eq_true_eq]
    constructor
    · rintro ⟨x, ⟨hx, hne⟩, rfl⟩
      exact ⟨⟨x, hx, rfl⟩, hne⟩
    · rintro ⟨⟨x, hx, rfl⟩, hne⟩
      exact ⟨x, ⟨hx, hne⟩, rfl⟩
  constructor
  · rintro (⟨s, hs⟩ | ⟨i, hi, hdel | ⟨p, hp⟩⟩)
    · have hsub := ((@processMpdus_settles env a₁ fs).defragQ s).trans (hdefrag s)
      exact absurd (mem_defragQ h (idsOf_subset hsub hs)).1 h.notMem
    · rw [hdelivers] at hdel
      obtain rfl | ⟨p, hp⟩ := hfs i (mem_of_mpdusHandOn hdel)
      · exact Or.inl hdel
      · exact absurd hp (notMem_window_of_mpduIds h hi p)
    · obtain ⟨hmem, hne⟩ := (hqueue p i).mp hp
      obtain rfl | hold := hwindow p i hmem
      · exact Or.inr ⟨p, hmem, hne⟩
      · exact absurd hold (notMem_window_of_mpduIds h hi p)
  · rintro (hdel | ⟨p, hp⟩)
    · exact Or.inr ⟨g.id, hg, Or.inl ((hdelivers _).mpr hdel)⟩
    · exact Or.inr ⟨g.id, hg, Or.inr ⟨p, (hqueue p _).mpr hp⟩⟩

theorem not_takesUp_of_recedes (h : Owned a (f.id ::ₘ hand)) (hr : a.Recedes a') :
    ¬TakesUp a a' f := by
  have hmem : f.id ∈ mpduIds a f := Or.inl rfl
  have hend := @takesUp_processMpdus Env.wrongKey a f f hand a' [] h hmem hr.trace hr.defragQ
    (fun p i hi => Or.inr (idsOf_subset (hr.window p) hi)) (by simp)
  intro htake
  obtain hdel | ⟨p, hp, -⟩ := hend.mp htake
  · simp [mpdusHandOn] at hdel
  · exact notMem_window_of_mpduIds h hmem p (idsOf_subset (hr.window p) hp)

theorem takesUp_recvProcessMpdu {a₁ : Adapter} (h : Owned a (f.id ::ₘ hand)) (hr : a.Recedes a₁)
    (hg : g.id ∈ mpduIds a f) :
    TakesUp a (recvProcessMpdu env a₁ g).2 f ↔ mpduHandsOn env a₁ g := by
  have hend := @takesUp_processMpdus env a f g hand a₁ [g] h hg hr.trace hr.defragQ
    (fun p i hi => Or.inr (idsOf_subset (hr.window p) hi)) (by simp)
  refine hend.trans ?_
  simp [mpdusHandOn]

/-- The window of a frame takes it, and the frame waits there or hands something on when the window
lets it go. -/
def windowHolds (env : Env) (a : Adapter) (f : RecvFrame) : Bool :=
  windowTakes a f && f.preorderCtrl.any fun p =>
    let r := (a.reorder p).recvIndicatepktReorder f
    r.2.1.pendingRecvframeQueue.any (·.id = f.id) ||
      mpdusHandOn env f.id (a.setReorder p r.2.1) r.2.2

theorem recvIndicatepktReorder_rxHandled_iff (env : Env) (a : Adapter) (f : RecvFrame) :
    (recvIndicatepktReorder env a f).1 = .rxHandled ↔ windowTakes a f := by
  rw [recvIndicatepktReorder_fst]
  split
  · simp_all
  · split <;> simp_all

theorem recvIndicatepktReorder_recedes (h : (recvIndicatepktReorder env a f).1 ≠ .rxHandled) :
    a.Recedes (recvIndicatepktReorder env a f).2 := by
  unfold recvIndicatepktReorder at h ⊢
  split
  · exact Adapter.Recedes.refl a
  · next p hctrl =>
    simp only [hctrl] at h
    obtain ⟨-, hfs, hqueue⟩ | ⟨hret, -⟩ := recvIndicatepktReorder_cases (a.reorder p) f
    · simp only [hfs, processMpdus, List.foldl_nil]
      exact setReorder_recedes hqueue
    · exact absurd hret h

theorem takesUp_recvIndicatepktReorder {a₁ : Adapter} (h : Owned a (f.id ::ₘ hand))
    (hr : a.Recedes a₁) (hg : g.id ∈ mpduIds a f) :
    TakesUp a (recvIndicatepktReorder env a₁ g).2 f ↔ windowHolds env a₁ g := by
  by_cases hret : (recvIndicatepktReorder env a₁ g).1 = .rxHandled
  · have htakes := (recvIndicatepktReorder_rxHandled_iff env a₁ g).mp hret
    unfold recvIndicatepktReorder at hret ⊢
    split
    · next hctrl => simp [hctrl] at hret
    · next p hctrl =>
      simp only [hctrl] at hret
      extract_lets r
      obtain ⟨hno, -⟩ | ⟨-, hperm⟩ := recvIndicatepktReorder_cases (a₁.reorder p) g
      · exact absurd hret hno
      have hids : idsOf r.2.2 + idsOf r.2.1.pendingRecvframeQueue =
          g.id ::ₘ idsOf (a₁.reorder p).pendingRecvframeQueue := by
        rw [← idsOf_append, idsOf_perm hperm, idsOf_cons]
      have hold : ∀ i, i ∈ idsOf r.2.2 ∨ i ∈ idsOf r.2.1.pendingRecvframeQueue →
          i = g.id ∨ i ∈ idsOf (a.reorder p).pendingRecvframeQueue := by
        intro i hi
        rw [← Multiset.mem_add, hids, Multiset.mem_cons] at hi
        exact hi.imp_right fun hmem => idsOf_subset (hr.window p) hmem
      have hnodup : (idsOf r.2.2 + idsOf r.2.1.pendingRecvframeQueue).Nodup := by
        rw [hids]
        refine Multiset.nodup_cons.mpr ⟨fun hmem => ?_, ?_⟩
        · exact notMem_window_of_mpduIds h hg p (idsOf_subset (hr.window p) hmem)
        · refine Multiset.nodup_of_le (Multiset.coe_le.mpr ((hr.window p).map _).subperm) ?_
          exact Multiset.nodup_of_le (window_le_census a p) (Multiset.nodup_add.mp h.nodup).1
      have hwindow : ∀ q, ∀ i ∈ idsOf ((a₁.setReorder p r.2.1).reorder q).pendingRecvframeQueue,
          i = g.id ∨ i ∈ idsOf (a.reorder q).pendingRecvframeQueue := by
        intro q i hi
        by_cases hq : q = p
        · subst hq
          rw [reorder_setReorder] at hi
          exact hold i (Or.inr hi)
        · rw [reorder_setReorder_of_ne a₁ _ hq] at hi
          exact Or.inr (idsOf_subset (hr.window q) hi)
      have hdefrag : ∀ s, ((a₁.setReorder p r.2.1).sta s).defragQ.Sublist (a.sta s).defragQ := by
        intro s
        rw [setReorder_defragQ]
        exact hr.defragQ s
      have hend := @takesUp_processMpdus env a f g hand (a₁.setReorder p r.2.1) r.2.2 h hg hr.trace
        hdefrag hwindow (fun i hi => (hold i (Or.inl hi)).imp_right fun hmem => ⟨p, hmem⟩)
      have hqueue : (∃ q, g.id ∈ idsOf ((a₁.setReorder p r.2.1).reorder q).pendingRecvframeQueue ∧
          g.id ∉ idsOf r.2.2) ↔ g.id ∈ idsOf r.2.1.pendingRecvframeQueue := by
        constructor
        · rintro ⟨q, hq, -⟩
          by_cases hqp : q = p
          · rwa [hqp, reorder_setReorder] at hq
          · rw [reorder_setReorder_of_ne a₁ _ hqp] at hq
            exact absurd (idsOf_subset (hr.window q) hq) (notMem_window_of_mpduIds h hg q)
        · intro hmem
          refine ⟨p, by rwa [reorder_setReorder], fun hfs => ?_⟩
          exact Multiset.disjoint_left.mp (Multiset.nodup_add.mp hnodup).2.2 hfs hmem
      have hholds : windowHolds env a₁ g = (r.2.1.pendingRecvframeQueue.any (·.id = g.id) ||
          mpdusHandOn env g.id (a₁.setReorder p r.2.1) r.2.2) := by
        simp [windowHolds, hctrl, r, htakes]
      rw [hend, hqueue, hholds, Bool.or_eq_true, or_comm, List.any_eq_true]
      simp [idsOf]
  · have hno : windowHolds env a₁ g = false := by
      rw [recvIndicatepktReorder_rxHandled_iff] at hret
      simp [windowHolds, hret]
    rw [hno]
    refine iff_of_false ?_ (by simp)
    exact not_takesUp_of_recedes h (hr.trans (recvIndicatepktReorder_recedes hret))

/-! ## Post-handling -/

/-- The MPDU `g` of a frame `f` is taken up behind `portctrl`: its window takes it, and it waits
there or hands something on; or it has no window, and hands something on. -/
def indicateTakes (env : Env) (a : Adapter) (f g : RecvFrame) : Bool :=
  let a := countRxStats a g none
  if windowTakes a g then windowHolds env a g
  else !windowRefuses a g &&
    mpduHandsOn env (setIseq (recvIndicatepktReorder env a g).2 g fun _ => f.attrib.seqNum) g

/-- A frame opens, and it is a fragment that waits for others, or brings an MPDU to the window that
is taken up there. -/
def posthandleTakes (env : Env) (a : Adapter) (f : RecvFrame) : Bool :=
  opens env.crypto a f && queuesFragment a (opened env.crypto a f) ||
    (handedOn env.crypto a f).any (indicateTakes env (beforeWindow env.crypto a f).2 f)

theorem setIseq_reorder (a : Adapter) (f : RecvFrame) (iseq : ℕ → ℕ) (p : StaId × Tid) :
    ((setIseq a f iseq).reorder p).pendingRecvframeQueue = (a.reorder p).pendingRecvframeQueue := by
  unfold setIseq
  split
  · rfl
  · next q _ =>
    by_cases hp : p = q
    · rw [hp, reorder_setReorder]
    · rw [reorder_setReorder_of_ne _ _ hp]

theorem setIseq_recedes (a : Adapter) (f : RecvFrame) (iseq : ℕ → ℕ) :
    a.Recedes (setIseq a f iseq) := by
  unfold setIseq
  split
  · exact Adapter.Recedes.refl a
  · exact setReorder_recedes rfl

theorem setIseq_defragQ (a : Adapter) (f : RecvFrame) (iseq : ℕ → ℕ) (s : StaId) :
    ((setIseq a f iseq).sta s).defragQ = (a.sta s).defragQ := by
  unfold setIseq
  split
  · rfl
  · exact setReorder_defragQ a _ _ s

theorem setIseq_trace (a : Adapter) (f : RecvFrame) (iseq : ℕ → ℕ) :
    (setIseq a f iseq).trace = a.trace := by
  unfold setIseq
  split <;> rfl

theorem takesUp_congr {a₁ a₂ : Adapter} (htrace : a₂.trace = a₁.trace)
    (hwindow : ∀ p, (a₂.reorder p).pendingRecvframeQueue = (a₁.reorder p).pendingRecvframeQueue)
    (hdefrag : ∀ s, (a₂.sta s).defragQ = (a₁.sta s).defragQ) :
    TakesUp a a₂ f ↔ TakesUp a a₁ f := by
  simp only [TakesUp, Adapter.Delivers, htrace, hwindow, hdefrag]

theorem takesUp_setIseq {a₁ : Adapter} (iseq : ℕ → ℕ) :
    TakesUp a (setIseq a₁ g iseq) f ↔ TakesUp a a₁ f :=
  takesUp_congr (setIseq_trace a₁ g iseq) (setIseq_reorder a₁ g iseq) (setIseq_defragQ a₁ g iseq)

theorem takesUp_countDrop {a₁ : Adapter} : TakesUp a a₁.countDrop f ↔ TakesUp a a₁ f :=
  takesUp_congr rfl (fun _ => rfl) fun _ => rfl

theorem takesUp_posthandleIndicate {a₁ : Adapter} {f₁ : RecvFrame} (h : Owned a (f.id ::ₘ hand))
    (hr : a.Recedes a₁) (hg : g.id ∈ mpduIds a f) :
    TakesUp a (posthandleIndicate env a₁ f₁ g).2 f ↔ indicateTakes env a₁ f₁ g := by
  have hcount := hr.trans (countRxStats_recedes a₁ g none)
  have hwindow := @takesUp_recvIndicatepktReorder env a f g hand _ h hcount hg
  have hrefuse := @recvIndicatepktReorder_recedes env (countRxStats a₁ g none) g
  have hret := recvIndicatepktReorder_fst env (countRxStats a₁ g none) g
  unfold posthandleIndicate indicateTakes
  extract_lets a₂
  change TakesUp a (recvIndicatepktReorder env a₂ g).2 f ↔ _ at hwindow
  change (recvIndicatepktReorder env a₂ g).1 ≠ _ → _ at hrefuse
  change (recvIndicatepktReorder env a₂ g).1 = if windowTakes a₂ g then _ else
    if windowRefuses a₂ g then _ else _ at hret
  rcases heq : recvIndicatepktReorder env a₂ g with ⟨ret, a₃⟩
  rw [heq] at hwindow hrefuse hret
  cases htakes : windowTakes a₂ g with
  | true =>
    obtain rfl : ret = .rxHandled := by simpa [htakes] using hret
    exact hwindow
  | false =>
    cases hrefuses : windowRefuses a₂ g with
    | true =>
      obtain rfl : ret = .fail := by simpa [htakes, hrefuses] using hret
      have hfree := (hcount.trans (hrefuse nofun)).trans (rtwFreeRecvframe_recedes a₃ f₁.id)
      rw [takesUp_countDrop]
      exact iff_of_false (not_takesUp_of_recedes h hfree) (by simp)
    | false =>
      obtain rfl : ret = .success := by simpa [htakes, hrefuses] using hret
      have hset := (hcount.trans (hrefuse nofun)).trans
        (setIseq_recedes a₃ g fun _ => f₁.attrib.seqNum)
      have hmpdu := @takesUp_recvProcessMpdu env a f g hand _ h hset hg
      simp only [Bool.false_eq_true, if_false, Bool.not_false, Bool.true_and]
      rw [← hmpdu]
      split
      · exact takesUp_countDrop.trans (takesUp_setIseq _)
      · exact takesUp_setIseq _

theorem decryptor_of_opens {crypto : Crypto} (h : opens crypto a f) :
    ∃ hw, decryptor crypto a f = (some (opened crypto a f), a.setHwDecrypted hw) := by
  obtain ⟨hw, hdec⟩ := decryptor_verdict crypto a f
  exact ⟨hw, by rwa [if_pos h] at hdec⟩

/-- What stands before the window only gives frames up, unless the frame waits for other
fragments. -/
theorem beforeWindow_recedes (crypto : Crypto)
    (h : (opens crypto a f && queuesFragment a (opened crypto a f)) = false) :
    a.Recedes (beforeWindow crypto a f).2 ∧
      ∀ g, (beforeWindow crypto a f).1 = some g → g.id ∈ mpduIds a f := by
  have hdec := decryptor_recedes crypto a f
  obtain ⟨hw, hverdict⟩ := decryptor_verdict crypto a f
  obtain ⟨a₁, heq, hbefore⟩ | ⟨f₁, a₁, heq, hrest⟩ := beforeWindow_cases crypto a f
  · rw [heq] at hdec
    rw [hbefore]
    exact ⟨hdec, by simp⟩
  rw [heq] at hdec hverdict
  have hq : queuesFragment a₁ f₁ = false := by
    split at hverdict
    · next hopens =>
      obtain ⟨hf₁, rfl⟩ := Prod.mk.inj hverdict
      obtain rfl := Option.some.inj hf₁
      change queuesFragment a (opened crypto a f) = false
      simpa [hopens] using h
    · cases hverdict
  obtain ⟨hdefrag, hmpdu⟩ := recvframeChkDefrag_recedes crypto hq
  have hdefrag := hdec.trans hdefrag
  obtain ⟨a₂, hchk, hbefore⟩ | ⟨x, a₂, hchk, hbefore⟩ := hrest
  · rw [hchk] at hdefrag
    rw [hbefore]
    exact ⟨hdefrag, by simp⟩
  rw [hchk] at hdefrag hmpdu
  have hx : x.id ∈ mpduIds a f := by
    obtain hx | ⟨s, hs⟩ := hmpdu x rfl
    · exact Or.inl (hx.trans (decryptor_id crypto heq))
    · exact Or.inr ⟨s, idsOf_subset (hdec.defragQ s) hs⟩
  rw [hbefore]
  obtain hport | hport := portctrl_cases a₂ x
  · rw [hport]
    refine ⟨hdefrag, fun g hg => ?_⟩
    obtain rfl := Option.some.inj hg
    exact hx
  · rw [hport]
    exact ⟨hdefrag.trans (rtwFreeRecvframe_recedes a₂ x.id), by simp⟩

/-- **`recv_func_posthandle` takes a frame up exactly when none of its stages gives it up.** -/
theorem posthandle_takesUp_iff (h : Owned a (f.id ::ₘ hand)) :
    TakesUp a (recvFuncPosthandle env a f).2 f ↔ posthandleTakes env a f := by
  have hfst := beforeWindow_fst env.crypto a f
  unfold posthandleTakes
  rw [← hfst, recvFuncPosthandle_eq]
  cases hq : opens env.crypto a f && queuesFragment a (opened env.crypto a f) with
  | true =>
    simp only [Bool.and_eq_true] at hq
    obtain ⟨hw, hdec⟩ := decryptor_of_opens hq.1
    obtain ⟨s, hnone, hmem⟩ :=
      recvframeChkDefrag_of_queues env.crypto (a := a.setHwDecrypted hw) hq.2
    rw [opened_id] at hmem
    have hbefore : beforeWindow env.crypto a f = (none,
        (recvframeChkDefrag env.crypto (a.setHwDecrypted hw) (opened env.crypto a f)).2) := by
      unfold beforeWindow
      rw [hdec]
      dsimp only
      rcases hchk : recvframeChkDefrag env.crypto (a.setHwDecrypted hw) (opened env.crypto a f) with
        ⟨o, a₂⟩
      rw [hchk] at hnone
      obtain rfl : o = none := hnone
      rfl
    rw [hbefore]
    exact iff_of_true (takesUp_countDrop.mpr (Or.inl ⟨s, hmem⟩)) (by simp)
  | false =>
    obtain ⟨hrecedes, hmpdu⟩ := beforeWindow_recedes env.crypto hq
    rcases hbefore : beforeWindow env.crypto a f with ⟨o, a₁⟩
    rw [hbefore] at hrecedes hmpdu
    cases o with
    | none =>
      rw [takesUp_countDrop]
      exact iff_of_false (not_takesUp_of_recedes h hrecedes) (by simp)
    | some g =>
      have hopened : (opened env.crypto a f).attrib.seqNum = f.attrib.seqNum := by
        obtain ⟨d, i, heq⟩ := opened_eq env.crypto a f
        rw [heq]
        rfl
      have htakes : indicateTakes env a₁ (opened env.crypto a f) g = indicateTakes env a₁ f g := by
        unfold indicateTakes
        rw [hopened]
      rw [takesUp_posthandleIndicate h hrecedes (hmpdu g rfl), htakes]
      simp

/-! ## Handing over -/

/-- The frames that go to `recv_process_mpdu`, which alone gives MSDUs to the network stack. -/
def processed (es : List RxEvent) : List ℕ :=
  es.filterMap fun
    | .process f => some f.id
    | _ => none

/-- No frame is handed over twice, and one that is handed over is free. -/
def Adapter.HandsOnce (a a' : Adapter) : Prop :=
  ∃ es, a'.trace = a.trace ++ es ∧ (processed es).Nodup ∧
    ∀ id ∈ processed es, id ∈ a'.freeRecvQueue

theorem processed_append (es es' : List RxEvent) :
    processed (es ++ es') = processed es ++ processed es' := List.filterMap_append

theorem processed_msdus {ds : List RxEvent} (h : ∀ e ∈ ds, e.isMsdu) : processed ds = [] := by
  refine List.filterMap_eq_nil_iff.mpr fun e he => ?_
  have hmsdu := h e he
  cases e <;> simp_all [RxEvent.isMsdu]

theorem processed_defrags (qs : List RecvFrame) : processed (qs.map .defrag) = [] := by
  refine List.filterMap_eq_nil_iff.mpr fun e he => ?_
  obtain ⟨f, -, rfl⟩ := List.mem_map.mp he
  rfl

namespace Adapter.HandsOnce

theorem before {a₁ : Adapter} (h : a₁.HandsOnce a')
    (htrace : ∃ qs : List RecvFrame, a₁.trace = a.trace ++ qs.map .defrag) : a.HandsOnce a' := by
  obtain ⟨es, hes, hnodup, hfree⟩ := h
  obtain ⟨qs, hqs⟩ := htrace
  refine ⟨qs.map .defrag ++ es, by rw [hes, hqs, List.append_assoc], ?_⟩
  rw [processed_append, processed_defrags]
  exact ⟨hnodup, hfree⟩

theorem after {a₁ : Adapter} (h : a.HandsOnce a₁) (htrace : a'.trace = a₁.trace)
    (hfree : ∀ id ∈ a₁.freeRecvQueue, id ∈ a'.freeRecvQueue) : a.HandsOnce a' := by
  obtain ⟨es, hes, hnodup, hmem⟩ := h
  exact ⟨es, htrace.trans hes, hnodup, fun id hid => hfree id (hmem id hid)⟩

theorem of_trace (htrace : ∃ qs : List RecvFrame, a'.trace = a.trace ++ qs.map .defrag) :
    a.HandsOnce a' := before ⟨[], (List.append_nil _).symm, List.nodup_nil, nofun⟩ htrace

end Adapter.HandsOnce

theorem processMpdus_processed (env : Env) (a : Adapter) (fs : List RecvFrame) :
    ∃ es, (processMpdus env a fs).trace = a.trace ++ es ∧ processed es = fs.map (·.id) := by
  induction fs generalizing a with
  | nil => exact ⟨[], (List.append_nil _).symm, rfl⟩
  | cons f fs ih =>
    obtain ⟨ds, hds, -, hproc⟩ := recvProcessMpdu_events env a f
    obtain ⟨es, hes, hids⟩ := ih (recvProcessMpdu env a f).2
    have htrace : (recvProcessMpdu env a f).2.trace = a.trace ++ .process f :: ds := by
      rw [hproc]
      rfl
    refine ⟨.process f :: ds ++ es, ?_, ?_⟩
    · rw [← List.append_assoc, ← htrace]
      exact hes
    · have hself : processed (.process f :: ds) = [f.id] := by
        change f.id :: processed ds = [f.id]
        rw [processed_msdus hds]
      rw [processed_append, hself, hids]
      rfl

theorem processMpdus_handsOnce {fs : List RecvFrame} (h : (idsOf fs).Nodup) :
    a.HandsOnce (processMpdus env a fs) := by
  obtain ⟨es, hes, hids⟩ := processMpdus_processed env a fs
  refine ⟨es, hes, hids ▸ h, fun id hid => ?_⟩
  rw [hids] at hid
  obtain ⟨f, hf, rfl⟩ := List.mem_map.mp hid
  exact mem_freeRecvQueue_processMpdus hf

theorem recvProcessMpdu_handsOnce (env : Env) (a : Adapter) (f : RecvFrame) :
    a.HandsOnce (recvProcessMpdu env a f).2 :=
  @processMpdus_handsOnce env a [f] (by simp [idsOf])

theorem recvIndicatepktReorder_handsOnce (h : Owned a (f.id ::ₘ hand)) :
    a.HandsOnce (recvIndicatepktReorder env a f).2 := by
  unfold recvIndicatepktReorder
  split
  · exact Adapter.HandsOnce.of_trace ⟨[], (List.append_nil _).symm⟩
  · next p _ =>
    extract_lets r
    have hset : ∃ qs : List RecvFrame, (a.setReorder p r.2.1).trace = a.trace ++ qs.map .defrag :=
      ⟨[], (List.append_nil _).symm⟩
    refine Adapter.HandsOnce.before (processMpdus_handsOnce ?_) hset
    obtain ⟨-, hfs, -⟩ | ⟨-, hperm⟩ := recvIndicatepktReorder_cases (a.reorder p) f
    · rw [hfs]
      exact Multiset.nodup_zero
    · have hids : idsOf r.2.2 ≤ f.id ::ₘ idsOf (a.reorder p).pendingRecvframeQueue := by
        rw [← idsOf_cons, ← idsOf_perm hperm, idsOf_append]
        exact Multiset.le_add_right _ _
      refine Multiset.nodup_of_le hids (Multiset.nodup_cons.mpr ⟨fun hmem => ?_, ?_⟩)
      · exact h.notMem (Multiset.mem_of_le (window_le_census a p) hmem)
      · exact Multiset.nodup_of_le (window_le_census a p) (Multiset.nodup_add.mp h.nodup).1

theorem setIseq_freeRecvQueue (a : Adapter) (f : RecvFrame) (iseq : ℕ → ℕ) :
    (setIseq a f iseq).freeRecvQueue = a.freeRecvQueue := (setIseq_keeps a f iseq).freeRecvQueue

theorem posthandleIndicate_handsOnce (h : Owned a (g.id ::ₘ hand)) :
    a.HandsOnce (posthandleIndicate env a f g).2 := by
  have hcount := countRxStats_recedes a g none
  have howned := (countRxStats_keeps a g none).moves.owned h
  have hwindow := @recvIndicatepktReorder_handsOnce env _ g hand howned
  have hwindow := hwindow.before hcount.trace
  have hrefuse := @recvIndicatepktReorder_recedes env (countRxStats a g none) g
  unfold posthandleIndicate
  extract_lets a₁
  split
  · next a₂ heq =>
    rw [heq] at hwindow
    exact hwindow.after rfl fun id hid => mem_freeRecvQueue_of_mem f.id hid
  · next a₂ heq =>
    rw [heq] at hwindow
    exact hwindow
  · next a₂ heq =>
    rw [heq] at hrefuse
    extract_lets a₃ r a₄
    have hset := (hcount.trans (hrefuse nofun)).trans
      (setIseq_recedes a₂ g fun _ => f.attrib.seqNum)
    have hmpdu := (recvProcessMpdu_handsOnce env a₃ g).before hset.trace
    have hend : a.HandsOnce a₄ := hmpdu.after (setIseq_trace r.2 g _) fun id hid => by
      rw [setIseq_freeRecvQueue]
      exact hid
    dsimp only
    split
    · exact hend.after rfl fun _ hid => hid
    · exact hend

theorem recvFuncPosthandle_handsOnce (h : Owned a (f.id ::ₘ hand)) :
    a.HandsOnce (recvFuncPosthandle env a f).2 := by
  have hmoves := beforeWindow_moves env.crypto h
  have hdefrags : ∃ qs : List RecvFrame,
      (beforeWindow env.crypto a f).2.trace = a.trace ++ qs.map .defrag := by
    obtain ⟨qs, hqs⟩ := (decryptor_recedes env.crypto a f).trace
    obtain ⟨a₁, hdec, hbefore⟩ | ⟨f₁, a₁, hdec, hrest⟩ := beforeWindow_cases env.crypto a f
    · rw [hdec] at hqs
      rw [hbefore]
      exact ⟨qs, hqs⟩
    rw [hdec] at hqs
    obtain ⟨qs', hqs'⟩ := recvframeChkDefrag_trace env.crypto a₁ f₁
    rw [hqs, List.append_assoc, ← List.map_append] at hqs'
    obtain ⟨a₂, hchk, hbefore⟩ | ⟨g, a₂, hchk, hbefore⟩ := hrest
    · rw [hchk] at hqs'
      rw [hbefore]
      exact ⟨_, hqs'⟩
    · rw [hchk] at hqs'
      rw [hbefore]
      obtain hport | hport := portctrl_cases a₂ g <;> rw [hport] <;> exact ⟨_, hqs'⟩
  rw [recvFuncPosthandle_eq]
  rcases hbefore : beforeWindow env.crypto a f with ⟨o, a₁⟩
  rw [hbefore] at hmoves hdefrags
  cases o with
  | none => exact Adapter.HandsOnce.of_trace hdefrags
  | some g => exact (posthandleIndicate_handsOnce (hmoves.owned h)).before hdefrags

end Rtl88x2eu
