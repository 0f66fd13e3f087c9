import Mathlib.Algebra.BigOperators.Fin
import Mathlib.Tactic.Abel
import Rtl88x2eu.Lib.Custody
import Rtl88x2eu.Recv.RecvFunc

/-!
# Custody of receive descriptors

Every descriptor of an adapter is on the free list, in `uc_swdec_pending_queue`, in a fragment
queue or in a reorder window, or it is in the hands of the receive path. The free count is the
length of the free list as long as no descriptor is freed twice; each double free leaves the count
ahead for good.

## Main definitions

* `Adapter.census`, `Adapter.surplus`, `recvLedger`: the ledger of an adapter
* `Moves`, `Owned`: custody over that ledger

## Main results

* `rtwFreeRecvframe_moves`
* `surplus_lt_rtwFreeRecvframe`: a double free leaves the count ahead
* `decryptor_moves`, `recvframeChkDefrag_moves`, `portctrl_moves`, `recvProcessMpdu_moves`,
  `recvIndicatepktReorder_moves`: the custody rules of the receive path
-/

namespace Rtl88x2eu

def idsOf (q : List RecvFrame) : Multiset ℕ := (q.map RecvFrame.id : List ℕ)

/-- The descriptors in the queues of a station. -/
def StaInfo.held (p : StaInfo) : Multiset ℕ :=
  idsOf p.defragQ + ∑ t, idsOf (p.recvreorderCtrl t).pendingRecvframeQueue

def Adapter.census (a : Adapter) : Multiset ℕ :=
  (a.freeRecvQueue : Multiset ℕ) + idsOf a.ucSwdecPendingQueue + ∑ s, (a.sta s).held

def Adapter.surplus (a : Adapter) : ℤ := a.freeRecvframeCnt - a.freeRecvQueue.length

def recvLedger : Ledger Adapter ℕ := ⟨Adapter.census, Adapter.surplus⟩

abbrev Owned (a : Adapter) (hand : Multiset ℕ) : Prop := recvLedger.Owned a hand

abbrev Moves (a : Adapter) (hand : Multiset ℕ) (a' : Adapter) (hand' : Multiset ℕ) : Prop :=
  recvLedger.Moves a hand a' hand'

variable {a a' : Adapter} {hand : Multiset ℕ} {f g : RecvFrame} {id : ℕ} {s : StaId}

/-! ## The lists -/

@[simp] theorem idsOf_nil : idsOf [] = 0 := rfl

@[simp] theorem idsOf_cons (f : RecvFrame) (q : List RecvFrame) :
    idsOf (f :: q) = f.id ::ₘ idsOf q := rfl

@[simp] theorem idsOf_append (q q' : List RecvFrame) : idsOf (q ++ q') = idsOf q + idsOf q' := by
  simp [idsOf]

theorem idsOf_perm {q q' : List RecvFrame} (h : q.Perm q') : idsOf q = idsOf q' :=
  Multiset.coe_eq_coe.mpr (h.map RecvFrame.id)

theorem idsOf_filter (q : List RecvFrame) (id : ℕ) :
    idsOf (q.filter (·.id ≠ id)) = (idsOf q).filter (· ≠ id) := by
  induction q with
  | nil => rfl
  | cons f q ih => by_cases h : f.id = id <;> simp_all

theorem filter_sum {ι : Type*} (t : Finset ι) (p : ℕ → Prop) [DecidablePred p]
    (q : ι → Multiset ℕ) : (∑ i ∈ t, q i).filter p = ∑ i ∈ t, (q i).filter p :=
  map_sum (⟨⟨Multiset.filter p, Multiset.filter_zero p⟩, Multiset.filter_add p⟩ :
    Multiset ℕ →+ Multiset ℕ) q t

theorem census_listDelete (a : Adapter) (id : ℕ) :
    (a.listDelete id).census = a.census.filter (· ≠ id) := by
  simp only [Adapter.census, Adapter.listDelete, StaInfo.held, Multiset.filter_add, filter_sum,
    idsOf_filter, ← Multiset.filter_coe]

/-- A station gives and takes the descriptors of its queues. -/
theorem census_setSta (a : Adapter) (s : StaId) (p : StaInfo) :
    (a.setSta s p).census + (a.sta s).held = a.census + p.held := by
  have hsum := Finset.add_sum_erase Finset.univ (fun i => (a.sta i).held) (Finset.mem_univ s)
  have hsum' :=
    Finset.add_sum_erase Finset.univ (fun i => ((a.setSta s p).sta i).held) (Finset.mem_univ s)
  have hrest : ∑ i ∈ Finset.univ.erase s, ((a.setSta s p).sta i).held =
      ∑ i ∈ Finset.univ.erase s, (a.sta i).held := by
    refine Finset.sum_congr rfl fun i hi => ?_
    rw [setSta_sta_of_ne a p (Finset.ne_of_mem_erase hi)]
  rw [hrest, setSta_sta] at hsum'
  calc (a.setSta s p).census + (a.sta s).held
      = (a.freeRecvQueue : Multiset ℕ) + idsOf a.ucSwdecPendingQueue +
          ∑ i, ((a.setSta s p).sta i).held + (a.sta s).held := rfl
    _ = (a.freeRecvQueue : Multiset ℕ) + idsOf a.ucSwdecPendingQueue +
          ∑ i, (a.sta i).held + p.held := by
        rw [← hsum, ← hsum']
        abel
    _ = a.census + p.held := rfl

theorem census_setSta_of_held {p : StaInfo} (h : p.held = (a.sta s).held) :
    (a.setSta s p).census = a.census := by
  have hcensus := census_setSta a s p
  rw [h] at hcensus
  exact add_right_cancel hcensus

@[simp] theorem surplus_setSta (a : Adapter) (s : StaId) (p : StaInfo) :
    (a.setSta s p).surplus = a.surplus := rfl

theorem held_setReorder (p : StaInfo) (t : Tid) (c : RecvReorderCtrl) :
    (p.setReorder t c).held + idsOf (p.recvreorderCtrl t).pendingRecvframeQueue =
      p.held + idsOf c.pendingRecvframeQueue := by
  have hsum := Finset.add_sum_erase Finset.univ
    (fun i => idsOf (p.recvreorderCtrl i).pendingRecvframeQueue) (Finset.mem_univ t)
  have hsum' := Finset.add_sum_erase Finset.univ
    (fun i => idsOf ((p.setReorder t c).recvreorderCtrl i).pendingRecvframeQueue)
    (Finset.mem_univ t)
  have hrest : ∑ i ∈ Finset.univ.erase t,
        idsOf ((p.setReorder t c).recvreorderCtrl i).pendingRecvframeQueue =
      ∑ i ∈ Finset.univ.erase t, idsOf (p.recvreorderCtrl i).pendingRecvframeQueue := by
    refine Finset.sum_congr rfl fun i hi => ?_
    rw [setReorder_recvreorderCtrl_of_ne p c (Finset.ne_of_mem_erase hi)]
  rw [hrest, setReorder_recvreorderCtrl] at hsum'
  calc (p.setReorder t c).held + idsOf (p.recvreorderCtrl t).pendingRecvframeQueue
      = idsOf p.defragQ +
          ∑ i, idsOf ((p.setReorder t c).recvreorderCtrl i).pendingRecvframeQueue +
          idsOf (p.recvreorderCtrl t).pendingRecvframeQueue := rfl
    _ = idsOf p.defragQ + ∑ i, idsOf (p.recvreorderCtrl i).pendingRecvframeQueue +
          idsOf c.pendingRecvframeQueue := by
        rw [← hsum, ← hsum']
        abel
    _ = p.held + idsOf c.pendingRecvframeQueue := rfl

theorem census_setReorder (a : Adapter) (p : StaId × Tid) (c : RecvReorderCtrl) :
    (a.setReorder p c).census + idsOf (a.reorder p).pendingRecvframeQueue =
      a.census + idsOf c.pendingRecvframeQueue := by
  have hsta := census_setSta a p.1 ((a.sta p.1).setReorder p.2 c)
  have hctrl := held_setReorder (a.sta p.1) p.2 c
  refine add_right_cancel (b := (a.sta p.1).held) ?_
  calc (a.setReorder p c).census + idsOf (a.reorder p).pendingRecvframeQueue + (a.sta p.1).held
      = (a.setSta p.1 ((a.sta p.1).setReorder p.2 c)).census + (a.sta p.1).held +
          idsOf (a.reorder p).pendingRecvframeQueue := add_right_comm _ _ _
    _ = a.census + (((a.sta p.1).setReorder p.2 c).held +
          idsOf ((a.sta p.1).recvreorderCtrl p.2).pendingRecvframeQueue) := by
        rw [hsta, add_assoc]
        rfl
    _ = a.census + idsOf c.pendingRecvframeQueue + (a.sta p.1).held := by
        rw [hctrl]
        abel

theorem census_setReorder_of_queue {p : StaId × Tid} {c : RecvReorderCtrl}
    (h : c.pendingRecvframeQueue = (a.reorder p).pendingRecvframeQueue) :
    (a.setReorder p c).census = a.census := by
  have hcensus := census_setReorder a p c
  rw [h] at hcensus
  exact add_right_cancel hcensus

@[simp] theorem surplus_setReorder (a : Adapter) (p : StaId × Tid) (c : RecvReorderCtrl) :
    (a.setReorder p c).surplus = a.surplus := rfl

/-! ## Freeing a descriptor -/

theorem census_rtwFreeRecvframe (a : Adapter) (id : ℕ) :
    (rtwFreeRecvframe a id).census = id ::ₘ a.census.filter (· ≠ id) := by
  have hfree : (rtwFreeRecvframe a id).census = {id} + (a.listDelete id).census := by
    simp only [Adapter.census, rtwFreeRecvframe, ← Multiset.coe_add, Multiset.coe_singleton]
    abel
  rw [hfree, census_listDelete, Multiset.singleton_add]

theorem surplus_rtwFreeRecvframe (a : Adapter) (id : ℕ) :
    (rtwFreeRecvframe a id).surplus = a.surplus + a.freeRecvQueue.count id := by
  have hlen := List.length_eq_length_filter_add (l := a.freeRecvQueue) (fun i => decide (i ≠ id))
  have hcount : a.freeRecvQueue.count id =
      (a.freeRecvQueue.filter fun i => !decide (i ≠ id)).length := by
    rw [List.count_eq_length_filter]
    congr 1
    refine List.filter_congr fun i _ => ?_
    by_cases hi : i = id <;> simp [hi]
  simp only [Adapter.surplus, rtwFreeRecvframe, Adapter.listDelete, List.length_append,
    List.length_singleton]
  push_cast
  omega

theorem surplus_le_rtwFreeRecvframe (a : Adapter) (id : ℕ) :
    a.surplus ≤ (rtwFreeRecvframe a id).surplus := by
  rw [surplus_rtwFreeRecvframe]
  omega

/-- A descriptor in hand goes to the free list. -/
theorem rtwFreeRecvframe_moves (h : Owned a (id ::ₘ hand)) :
    Moves a (id ::ₘ hand) (rtwFreeRecvframe a id) hand := by
  have hid : id ∉ a.census := h.notMem
  refine ⟨?_, ?_⟩
  · have hfilter : a.census.filter (· ≠ id) = a.census := by
      refine Multiset.filter_eq_self.mpr fun i hi => ?_
      exact ne_of_mem_of_not_mem hi hid
    calc (rtwFreeRecvframe a id).census + hand = id ::ₘ a.census + hand := by
          rw [census_rtwFreeRecvframe, hfilter]
      _ = a.census + id ::ₘ hand := by rw [Multiset.cons_add, Multiset.add_cons]
  · have hfree : id ∉ a.freeRecvQueue := fun hmem => hid <| by simp [Adapter.census, hmem]
    calc (rtwFreeRecvframe a id).surplus = a.surplus + a.freeRecvQueue.count id :=
          surplus_rtwFreeRecvframe a id
      _ = a.surplus := by rw [List.count_eq_zero_of_not_mem hfree]; simp

/-- **A double free leaves the count ahead.** -/
theorem surplus_lt_rtwFreeRecvframe (h : id ∈ a.freeRecvQueue) :
    a.surplus < (rtwFreeRecvframe a id).surplus := by
  have hcount := List.count_pos_iff.mpr h
  rw [surplus_rtwFreeRecvframe]
  omega

theorem mem_freeRecvQueue_rtwFreeRecvframe (a : Adapter) (id : ℕ) :
    id ∈ (rtwFreeRecvframe a id).freeRecvQueue := by
  simp [rtwFreeRecvframe]

theorem rtwFreeRecvframe_moves_of_queued (h : Owned a hand) (hid : id ∈ a.census)
    (hfree : id ∉ a.freeRecvQueue) : Moves a hand (rtwFreeRecvframe a id) hand := by
  have hnodup : a.census.Nodup := (Multiset.nodup_add.mp h.nodup).1
  refine ⟨?_, ?_⟩
  · have hcensus : (rtwFreeRecvframe a id).census = a.census := by
      rw [census_rtwFreeRecvframe, ← hnodup.erase_eq_filter, Multiset.cons_erase hid]
    exact congrArg (· + hand) hcensus
  · calc (rtwFreeRecvframe a id).surplus = a.surplus + a.freeRecvQueue.count id :=
          surplus_rtwFreeRecvframe a id
      _ = a.surplus := by rw [List.count_eq_zero_of_not_mem hfree]; simp

theorem rtwFreeRecvframeQueue_moves {q : List RecvFrame} (h : Owned a hand)
    (hq : (idsOf q).Nodup) (hmem : ∀ i ∈ idsOf q, i ∈ a.census ∧ i ∉ a.freeRecvQueue) :
    Moves a hand (rtwFreeRecvframeQueue a q) hand := by
  induction q generalizing a with
  | nil => exact Ledger.Moves.refl
  | cons g q ih =>
    rw [idsOf_cons] at hq hmem
    rw [Multiset.nodup_cons] at hq
    have hg := hmem g.id (Multiset.mem_cons_self _ _)
    have hmoves := rtwFreeRecvframe_moves_of_queued h hg.1 hg.2
    refine hmoves.trans (ih (hmoves.owned h) hq.2 fun i hi => ?_)
    have hne : i ≠ g.id := ne_of_mem_of_not_mem hi hq.1
    have hi' := hmem i (Multiset.mem_cons_of_mem hi)
    refine ⟨?_, ?_⟩
    · rw [census_rtwFreeRecvframe]
      exact Multiset.mem_cons_of_mem (Multiset.mem_filter.mpr ⟨hi'.1, hne⟩)
    · simp [rtwFreeRecvframe, Adapter.listDelete, hi'.2, hne]

theorem surplus_le_rtwFreeRecvframeQueue (a : Adapter) (q : List RecvFrame) :
    a.surplus ≤ (rtwFreeRecvframeQueue a q).surplus :=
  Ledger.surplus_le_foldl (L := recvLedger) (fun _ _ => surplus_le_rtwFreeRecvframe _ _) q a

/-! ## What moves nothing -/

/-- The queues hold the same descriptors, and the free list and its count are the same. -/
structure Adapter.Keeps (a a' : Adapter) : Prop where
  census : a'.census = a.census
  freeRecvQueue : a'.freeRecvQueue = a.freeRecvQueue
  freeRecvframeCnt : a'.freeRecvframeCnt = a.freeRecvframeCnt

namespace Adapter.Keeps

theorem refl (a : Adapter) : a.Keeps a := ⟨rfl, rfl, rfl⟩

theorem trans {a'' : Adapter} (h : a.Keeps a') (h' : a'.Keeps a'') : a.Keeps a'' :=
  ⟨h'.census.trans h.census, h'.freeRecvQueue.trans h.freeRecvQueue,
    h'.freeRecvframeCnt.trans h.freeRecvframeCnt⟩

theorem surplus (h : a.Keeps a') : a'.surplus = a.surplus := by
  rw [Adapter.surplus, Adapter.surplus, h.freeRecvQueue, h.freeRecvframeCnt]

theorem moves (h : a.Keeps a') : Moves a hand a' hand := Ledger.Moves.of_eq h.census h.surplus

end Adapter.Keeps

theorem setSta_keeps {p : StaInfo} (h : p.held = (a.sta s).held) : a.Keeps (a.setSta s p) :=
  ⟨census_setSta_of_held h, rfl, rfl⟩

theorem setReorder_keeps {p : StaId × Tid} {c : RecvReorderCtrl}
    (h : c.pendingRecvframeQueue = (a.reorder p).pendingRecvframeQueue) :
    a.Keeps (a.setReorder p c) :=
  ⟨census_setReorder_of_queue h, rfl, rfl⟩

theorem countRxStats_keeps (a : Adapter) (f : RecvFrame) (sta : Option StaId) :
    a.Keeps (countRxStats a f sta) := by
  simp only [countRxStats]
  split
  · exact ⟨rfl, rfl, rfl⟩
  · have hbytes : a.Keeps { a with rxBytes := a.rxBytes + f.len } := ⟨rfl, rfl, rfl⟩
    exact hbytes.trans (setSta_keeps rfl)

theorem setPrxseq_held (p : StaInfo) (attrib : RxPktAttrib) (t : Tid) :
    (p.setPrxseq attrib t).held = p.held := by
  unfold StaInfo.setPrxseq
  split <;> rfl

theorem recvDecache_keeps (a : Adapter) (s : StaId) (attrib : RxPktAttrib) :
    a.Keeps (recvDecache a s attrib).2 := by
  simp only [recvDecache]
  split_ifs
  · exact Adapter.Keeps.refl a
  · exact setSta_keeps rfl
  · exact setSta_keeps (setPrxseq_held _ _ _)

theorem recvUcastPnDecache_keeps (a : Adapter) (s : StaId) (f : RecvFrame) :
    a.Keeps (recvUcastPnDecache a s f).2 := by
  simp only [recvUcastPnDecache]
  split_ifs
  · exact Adapter.Keeps.refl a
  · exact setSta_keeps rfl
  · exact Adapter.Keeps.refl a

theorem recvBcastPnDecache_keeps (a : Adapter) (f : RecvFrame) :
    a.Keeps (recvBcastPnDecache a f).2 := by
  simp only [recvBcastPnDecache]
  split_ifs <;> exact ⟨rfl, rfl, rfl⟩

theorem decacheDataFrame_keeps (a : Adapter) (s : StaId) (f : RecvFrame) :
    a.Keeps (decacheDataFrame a s f).2 := by
  have hdecache := recvDecache_keeps a s f.attrib
  unfold decacheDataFrame
  split
  · next h => exact h ▸ hdecache
  · next a' h =>
    rw [h] at hdecache
    split_ifs
    · exact hdecache.trans (recvBcastPnDecache_keeps a' f)
    · exact hdecache.trans (recvUcastPnDecache_keeps a' s f)

theorem rtwApRxDataValidateHdr_keeps (a : Adapter) (f : RecvFrame) :
    a.Keeps (rtwApRxDataValidateHdr a f).2 := by
  unfold rtwApRxDataValidateHdr
  extract_lets
  repeat' split
  all_goals dsimp only
  all_goals first | exact Adapter.Keeps.refl a | exact countRxStats_keeps _ _ _

theorem rtwStaRxDataValidateHdr_keeps (a : Adapter) (f : RecvFrame) :
    a.Keeps (rtwStaRxDataValidateHdr a f).2 := by
  unfold rtwStaRxDataValidateHdr
  extract_lets
  repeat' split
  all_goals dsimp only
  all_goals first | exact Adapter.Keeps.refl a | exact countRxStats_keeps _ _ _

theorem validateDataHdr_keeps {r : HdrResult} (h : validateDataHdr a f = (r, a')) :
    a.Keeps a' := by
  have ha' : a' = (validateDataHdr a f).2 := by rw [h]
  rw [ha']
  unfold validateDataHdr
  split
  · exact rtwApRxDataValidateHdr_keeps a f
  split
  · exact rtwStaRxDataValidateHdr_keeps a f
  · exact Adapter.Keeps.refl a

theorem noteNonBe_keeps (a : Adapter) (p : RxPktAttrib) : a.Keeps (a.noteNonBe p) := by
  unfold Adapter.noteNonBe
  split <;> exact ⟨rfl, rfl, rfl⟩

theorem validateDataBody_keeps (a : Adapter) (s : StaId) (f : RecvFrame) :
    a.Keeps (validateDataBody a s f).2.2 := by
  unfold validateDataBody
  extract_lets
  split <;> exact (noteNonBe_keeps a _).trans (decacheDataFrame_keeps _ s _)

theorem validateRecvDataFrame_keeps (a : Adapter) (f : RecvFrame) :
    a.Keeps (validateRecvDataFrame a f).2.2 := by
  unfold validateRecvDataFrame
  extract_lets
  split
  · next h =>
    split
    · exact validateDataHdr_keeps h
    · exact (validateDataHdr_keeps h).trans (validateDataBody_keeps _ _ _)
  · next h => exact validateDataHdr_keeps h
  · next h => exact validateDataHdr_keeps h

theorem rtwProcessBarFrame_keeps (a : Adapter) (w : Bytes) : a.Keeps (rtwProcessBarFrame a w) := by
  unfold rtwProcessBarFrame
  split
  · exact Adapter.Keeps.refl a
  · exact setReorder_keeps rfl

theorem validateRecvCtrlFrame_keeps (a : Adapter) (f : RecvFrame) :
    a.Keeps (validateRecvCtrlFrame a f) := by
  unfold validateRecvCtrlFrame
  extract_lets
  split
  · exact Adapter.Keeps.refl a
  split
  · exact Adapter.Keeps.refl a
  · next s _ =>
    extract_lets stats src a'
    have hstats : a.Keeps a' := setSta_keeps rfl
    split
    · exact hstats.trans (rtwProcessBarFrame_keeps a' _)
    · exact hstats

theorem setIseq_keeps (a : Adapter) (f : RecvFrame) (iseq : ℕ → ℕ) :
    a.Keeps (setIseq a f iseq) := by
  unfold setIseq
  split
  · exact Adapter.Keeps.refl a
  · exact setReorder_keeps rfl

/-! ## The steps of the receive path -/

def taken (o : Option RecvFrame) : Multiset ℕ := idsOf o.toList

@[simp] theorem taken_none : taken none = 0 := rfl

@[simp] theorem taken_some (f : RecvFrame) : taken (some f) = {f.id} := rfl

variable (crypto : Crypto)

theorem swDecrypt_frame (a : Adapter) (f : RecvFrame) :
    ∃ d, (swDecrypt crypto a f).2 = { f with rxData := d } := by
  unfold swDecrypt rtwAesDecrypt rtwGcmpDecrypt
  split
  · exact ⟨_, rfl⟩
  · exact ⟨_, rfl⟩
  · unfold rtwTkipDecrypt
    repeat' split
    all_goals exact ⟨_, rfl⟩
  · unfold rtwAeadDecrypt
    extract_lets
    split <;> exact ⟨_, rfl⟩
  · unfold rtwAeadDecrypt
    extract_lets
    split <;> exact ⟨_, rfl⟩
  · unfold rtwAeadDecrypt
    extract_lets
    split <;> exact ⟨_, rfl⟩
  · unfold rtwAeadDecrypt
    extract_lets
    split <;> exact ⟨_, rfl⟩
  · exact ⟨_, rfl⟩

/-- A frame that `decryptor` passes differs in its bytes, its key index and `bdecrypted`; a frame
that it refuses is freed. -/
theorem decryptor_cases (a : Adapter) (f : RecvFrame) : ∃ hw,
    (∃ d k, decryptor crypto a f = (some (f.decrypted d k), a.setHwDecrypted hw)) ∨
      decryptor crypto a f = (none, rtwFreeRecvframe (a.setHwDecrypted hw) f.id) := by
  obtain ⟨k, hk⟩ : ∃ k, (if f.attrib.encrypt ≠ .noPrivacy then
      { f with attrib := { f.attrib with keyIndex := ivKeyIndex (f.rxData.drop f.attrib.hdrlen) } }
      else f) = { f with attrib := { f.attrib with keyIndex := k } } := by
    by_cases henc : f.attrib.encrypt ≠ .noPrivacy
    · exact ⟨_, if_pos henc⟩
    · exact ⟨f.attrib.keyIndex, if_neg henc⟩
  have hself : a = a.setHwDecrypted a.securitypriv.hwDecrypted := rfl
  unfold decryptor
  dsimp only
  rw [hk]
  split
  · obtain ⟨hw, hhw⟩ : ∃ hw, (if getFrameType f.rxData = .data then a.setHwDecrypted false else a) =
        a.setHwDecrypted hw := by
      split
      · exact ⟨_, rfl⟩
      · exact ⟨_, hself⟩
    dsimp only
    rw [hhw]
    obtain ⟨d, hd⟩ := swDecrypt_frame crypto (a.setHwDecrypted hw)
      { f with attrib := { f.attrib with keyIndex := k } }
    refine ⟨hw, ?_⟩
    split
    · refine Or.inl ⟨d, k, ?_⟩
      rw [hd]
      rfl
    · exact Or.inr rfl
  split
  · exact ⟨true, Or.inl ⟨f.rxData, k, rfl⟩⟩
  · exact ⟨_, Or.inl ⟨f.rxData, k, rfl⟩⟩

theorem setHwDecrypted_keeps (a : Adapter) (hw : Bool) : a.Keeps (a.setHwDecrypted hw) :=
  ⟨rfl, rfl, rfl⟩

theorem countDrop_keeps (a : Adapter) : a.Keeps a.countDrop := ⟨rfl, rfl, rfl⟩

theorem decryptor_moves (h : Owned a (f.id ::ₘ hand)) :
    Moves a (f.id ::ₘ hand) (decryptor crypto a f).2 (taken (decryptor crypto a f).1 + hand) := by
  obtain ⟨hw, ⟨d, k, hdec⟩ | hdec⟩ := decryptor_cases crypto a f
  · rw [hdec]
    exact (setHwDecrypted_keeps a hw).moves
  · rw [hdec, taken_none, zero_add]
    have hkeeps : Moves a (f.id ::ₘ hand) (a.setHwDecrypted hw) (f.id ::ₘ hand) :=
      (setHwDecrypted_keeps a hw).moves
    exact hkeeps.trans (rtwFreeRecvframe_moves (hkeeps.owned h))

theorem decryptor_id {a : Adapter} {o : RecvFrame} (h : decryptor crypto a f = (some o, a')) :
    o.id = f.id := by
  obtain ⟨hw, ⟨d, k, hdec⟩ | hdec⟩ := decryptor_cases crypto a f
  · rw [hdec, Prod.mk.injEq, Option.some.injEq] at h
    rw [← h.1, decrypted_id]
  · rw [hdec, Prod.mk.injEq] at h
    exact absurd h.1 nofun

theorem surplus_le_decryptor (a : Adapter) (f : RecvFrame) :
    a.surplus ≤ (decryptor crypto a f).2.surplus := by
  obtain ⟨hw, ⟨d, k, hdec⟩ | hdec⟩ := decryptor_cases crypto a f
  · rw [hdec]
    exact (setHwDecrypted_keeps a hw).surplus.ge
  · rw [hdec]
    exact (setHwDecrypted_keeps a hw).surplus.ge.trans (surplus_le_rtwFreeRecvframe _ _)

/-- `portctrl` passes the frame as it is, or frees it. -/
theorem portctrl_cases (a : Adapter) (f : RecvFrame) :
    portctrl a f = (some f, a) ∨ portctrl a f = (none, rtwFreeRecvframe a f.id) := by
  unfold portctrl
  repeat' split
  all_goals simp

theorem portctrl_moves (h : Owned a (f.id ::ₘ hand)) :
    Moves a (f.id ::ₘ hand) (portctrl a f).2 (taken (portctrl a f).1 + hand) := by
  obtain hport | hport := portctrl_cases a f
  · rw [hport]
    exact Ledger.Moves.refl
  · rw [hport, taken_none, zero_add]
    exact rtwFreeRecvframe_moves h

theorem surplus_le_portctrl (a : Adapter) (f : RecvFrame) :
    a.surplus ≤ (portctrl a f).2.surplus := by
  obtain hport | hport := portctrl_cases a f
  · rw [hport]
  · rw [hport]
    exact surplus_le_rtwFreeRecvframe a f.id

/-! ### Defragmentation -/

theorem noteGrpkey_keeps (a : Adapter) (micOk : Bool) (p : RxPktAttrib) :
    a.Keeps (a.noteGrpkey micOk p) := by
  unfold Adapter.noteGrpkey
  split <;> exact ⟨rfl, rfl, rfl⟩

theorem recvframeChkmic_id (a : Adapter) (f : RecvFrame) :
    (recvframeChkmic crypto a f).2.1.id = f.id := by
  unfold recvframeChkmic
  repeat' split
  all_goals simp

theorem recvframeChkmic_keeps (a : Adapter) (f : RecvFrame) :
    a.Keeps (recvframeChkmic crypto a f).2.2 := by
  unfold recvframeChkmic
  split
  · exact Adapter.Keeps.refl a
  split
  · exact Adapter.Keeps.refl a
  split
  · exact Adapter.Keeps.refl a
  · exact noteGrpkey_keeps a _ _

@[simp] theorem defragAppend_id (first next : RecvFrame) (body : Bytes) :
    (defragAppend first next body).id = first.id := by
  simp [defragAppend]

theorem defragLoop_id {first : RecvFrame} {curfragnum curPn : ℕ} {q : List RecvFrame}
    (h : defragLoop first curfragnum curPn q = some f) : f.id = first.id := by
  induction q generalizing first curfragnum curPn with
  | nil => rw [← Option.some.inj h]
  | cons next q ih =>
    unfold defragLoop at h
    dsimp only at h
    split_ifs at h
    all_goals rw [ih h, defragAppend_id]

theorem defragQ_le_census (a : Adapter) (s : StaId) : idsOf (a.sta s).defragQ ≤ a.census := by
  have hsum := Finset.add_sum_erase Finset.univ (fun i => (a.sta i).held) (Finset.mem_univ s)
  calc idsOf (a.sta s).defragQ ≤ (a.sta s).held := Multiset.le_add_right _ _
    _ ≤ ∑ i, (a.sta i).held := hsum ▸ Multiset.le_add_right _ _
    _ ≤ a.census := Multiset.le_add_left _ _

theorem window_le_census (a : Adapter) (p : StaId × Tid) :
    idsOf (a.reorder p).pendingRecvframeQueue ≤ a.census := by
  have hsta := Finset.add_sum_erase Finset.univ (fun i => (a.sta i).held) (Finset.mem_univ p.1)
  have htid := Finset.add_sum_erase Finset.univ
    (fun t => idsOf ((a.sta p.1).recvreorderCtrl t).pendingRecvframeQueue) (Finset.mem_univ p.2)
  calc idsOf (a.reorder p).pendingRecvframeQueue
      ≤ ∑ t, idsOf ((a.sta p.1).recvreorderCtrl t).pendingRecvframeQueue :=
        htid ▸ Multiset.le_add_right _ _
    _ ≤ (a.sta p.1).held := Multiset.le_add_left _ _
    _ ≤ ∑ i, (a.sta i).held := hsta ▸ Multiset.le_add_right _ _
    _ ≤ a.census := Multiset.le_add_left _ _

theorem notMem_freeRecvQueue_of_window (h : Owned a hand) {p : StaId × Tid} {i : ℕ}
    (hi : i ∈ idsOf (a.reorder p).pendingRecvframeQueue) : i ∉ a.freeRecvQueue := by
  have hnodup : a.census.Nodup := (Multiset.nodup_add.mp h.nodup).1
  have hdisjoint := (Multiset.nodup_add.mp hnodup).2.2
  have hheld : i ∈ (a.sta p.1).held := by
    refine Multiset.mem_add.mpr (Or.inr (Multiset.mem_sum.mpr ⟨p.2, Finset.mem_univ _, ?_⟩))
    exact hi
  have hsum : i ∈ ∑ j, (a.sta j).held := Multiset.mem_sum.mpr ⟨p.1, Finset.mem_univ _, hheld⟩
  intro hfree
  exact Multiset.disjoint_left.mp hdisjoint (by simp [hfree]) hsum

theorem mem_defragQ (h : Owned a hand) {i : ℕ} (hi : i ∈ idsOf (a.sta s).defragQ) :
    i ∈ a.census ∧ i ∉ a.freeRecvQueue := by
  have hnodup : a.census.Nodup := (Multiset.nodup_add.mp h.nodup).1
  have hdisjoint := (Multiset.nodup_add.mp hnodup).2.2
  refine ⟨Multiset.mem_of_le (defragQ_le_census a s) hi, fun hfree => ?_⟩
  have hsum : i ∈ ∑ j, (a.sta j).held :=
    Multiset.mem_sum.mpr ⟨s, Finset.mem_univ s, Multiset.mem_add.mpr (Or.inl hi)⟩
  exact Multiset.disjoint_left.mp hdisjoint (by simp [hfree]) hsum

theorem nodup_defragQ (h : Owned a hand) (s : StaId) : (idsOf (a.sta s).defragQ).Nodup :=
  Multiset.nodup_of_le (defragQ_le_census a s) (Multiset.nodup_add.mp h.nodup).1

theorem rtwFreeRecvframeQueue_moves_defragQ (h : Owned a hand) (s : StaId) :
    Moves a hand (rtwFreeRecvframeQueue a (a.sta s).defragQ) hand :=
  rtwFreeRecvframeQueue_moves h (nodup_defragQ h s) fun _ hi => mem_defragQ h hi

theorem census_setDefragQ (a : Adapter) (s : StaId) (q : List RecvFrame) :
    (a.setDefragQ s q).census + idsOf (a.sta s).defragQ = a.census + idsOf q := by
  refine add_right_cancel
    (b := ∑ t, idsOf ((a.sta s).recvreorderCtrl t).pendingRecvframeQueue) ?_
  rw [add_assoc, add_assoc]
  exact census_setSta a s { a.sta s with defragQ := q }

theorem notMem_window_of_mem_defragQ (h : Owned a hand) {i : ℕ} (hi : i ∈ idsOf (a.sta s).defragQ)
    (p : StaId × Tid) : i ∉ idsOf (a.reorder p).pendingRecvframeQueue := by
  have hreorder : (a.setDefragQ s []).reorder p = a.reorder p := by
    unfold Adapter.reorder Adapter.setDefragQ
    by_cases hp : p.1 = s
    · rw [hp, setSta_sta]
    · rw [setSta_sta_of_ne _ _ hp]
  have hcensus := census_setDefragQ a s []
  rw [idsOf_nil, add_zero] at hcensus
  have hnodup : a.census.Nodup := (Multiset.nodup_add.mp h.nodup).1
  rw [← hcensus] at hnodup
  intro hwindow
  rw [← hreorder] at hwindow
  exact Multiset.disjoint_left.mp (Multiset.nodup_add.mp hnodup).2.2
    (Multiset.mem_of_le (window_le_census _ p) hwindow) hi

theorem queueFragment_moves : Moves a (f.id ::ₘ hand) (a.queueFragment s f) hand := by
  refine ⟨?_, rfl⟩
  have hset := census_setDefragQ a s ((a.sta s).defragQ ++ [f])
  rw [idsOf_append, add_comm (idsOf (a.sta s).defragQ), ← add_assoc] at hset
  calc (a.queueFragment s f).census + hand = a.census + idsOf [f] + hand :=
        congrArg (· + hand) (add_right_cancel hset)
    _ = a.census + f.id ::ₘ hand := by
        rw [add_assoc, idsOf_cons, idsOf_nil, Multiset.cons_add, zero_add]

theorem setDefragQ_moves {first : RecvFrame} {rest : List RecvFrame}
    (h : (a.sta s).defragQ = first :: rest) :
    Moves a hand (a.setDefragQ s rest) (first.id ::ₘ hand) := by
  refine ⟨?_, rfl⟩
  have hset := census_setDefragQ a s rest
  rw [h, idsOf_cons, ← Multiset.singleton_add, ← add_assoc] at hset
  calc (a.setDefragQ s rest).census + first.id ::ₘ hand
      = (a.setDefragQ s rest).census + {first.id} + hand := by
        rw [← Multiset.singleton_add, add_assoc]
    _ = a.census + hand := congrArg (· + hand) (add_right_cancel hset)

/-- `recvframe_defrag` frees the fragments of a station, but for the one it returns. -/
theorem recvframeDefrag_moves (h : Owned a hand) (s : StaId) :
    Moves a hand (recvframeDefrag a s).2 (taken (recvframeDefrag a s).1 + hand) := by
  unfold recvframeDefrag
  split
  · rw [taken_none, zero_add]
    exact Ledger.Moves.refl
  · next first rest hq =>
    extract_lets a₁ curPn
    have hfirst : Moves a hand a₁ (first.id ::ₘ hand) := setDefragQ_moves hq
    have hset : (a₁.sta s).defragQ = rest := by simp [a₁, Adapter.setDefragQ]
    have howned := hfirst.owned h
    split
    · next g hg =>
      have hid : g.id = first.id := by
        split at hg
        · exact defragLoop_id hg
        · simp at hg
      have hrest := rtwFreeRecvframeQueue_moves_defragQ howned s
      rw [hset] at hrest
      simpa [hid] using hfirst.trans hrest
    · have hfree := rtwFreeRecvframe_moves howned
      have hrest := rtwFreeRecvframeQueue_moves_defragQ (hfree.owned howned) s
      have hnodup := nodup_defragQ h s
      rw [hq, idsOf_cons, Multiset.nodup_cons] at hnodup
      have hset' : ((rtwFreeRecvframe a₁ first.id).sta s).defragQ = rest := by
        change (a₁.sta s).defragQ.filter (·.id ≠ first.id) = rest
        rw [hset]
        refine List.filter_eq_self.mpr fun g hg => ?_
        have hne : g.id ≠ first.id :=
          ne_of_mem_of_not_mem (Multiset.mem_coe.mpr (List.mem_map_of_mem hg)) hnodup.1
        simpa using hne
      rw [hset'] at hrest
      rw [taken_none, zero_add]
      exact hfirst.trans (hfree.trans hrest)

theorem surplus_le_recvframeDefrag (a : Adapter) (s : StaId) :
    a.surplus ≤ (recvframeDefrag a s).2.surplus := by
  unfold recvframeDefrag
  split
  · exact le_rfl
  · next first rest _ =>
    extract_lets a₁ curPn
    have hset : a.surplus = a₁.surplus := rfl
    rw [hset]
    split
    · exact surplus_le_rtwFreeRecvframeQueue a₁ rest
    · exact (surplus_le_rtwFreeRecvframe a₁ first.id).trans
        (surplus_le_rtwFreeRecvframeQueue _ rest)

theorem queueDefrag_moves (h : Owned a (f.id ::ₘ hand)) (s : StaId) :
    Moves a (f.id ::ₘ hand) (queueDefrag a s f).2 (taken (queueDefrag a s f).1 + hand) := by
  unfold queueDefrag
  split
  · rw [taken_none, zero_add]
    dsimp only
    split
    · exact (rtwFreeRecvframeQueue_moves_defragQ h s).trans queueFragment_moves
    · exact queueFragment_moves
  · have hqueue : Moves a (f.id ::ₘ hand) (a.queueFragment s f) hand := queueFragment_moves
    exact hqueue.trans (recvframeDefrag_moves (hqueue.owned h) s)

theorem surplus_le_queueDefrag (a : Adapter) (s : StaId) (f : RecvFrame) :
    a.surplus ≤ (queueDefrag a s f).2.surplus := by
  unfold queueDefrag
  split
  · dsimp only
    split
    · exact surplus_le_rtwFreeRecvframeQueue a _
    · exact le_rfl
  · exact surplus_le_recvframeDefrag (a.queueFragment s f) s

theorem chkDefragQueue_moves (h : Owned a (f.id ::ₘ hand)) :
    Moves a (f.id ::ₘ hand) (chkDefragQueue a f).2 (taken (chkDefragQueue a f).1 + hand) := by
  unfold chkDefragQueue
  split
  · exact Ledger.Moves.refl
  split
  · rw [taken_none, zero_add]
    exact rtwFreeRecvframe_moves h
  split
  · rw [taken_none, zero_add]
    exact rtwFreeRecvframe_moves h
  · next s _ =>
    exact queueDefrag_moves (f := f.setKeytrack (a.sta s).keytrack) h s

theorem surplus_le_chkDefragQueue (a : Adapter) (f : RecvFrame) :
    a.surplus ≤ (chkDefragQueue a f).2.surplus := by
  unfold chkDefragQueue
  split
  · exact le_rfl
  split
  · exact surplus_le_rtwFreeRecvframe a f.id
  split
  · exact surplus_le_rtwFreeRecvframe a f.id
  · exact surplus_le_queueDefrag a _ _

theorem recvframeChkDefrag_moves (h : Owned a (f.id ::ₘ hand)) :
    Moves a (f.id ::ₘ hand) (recvframeChkDefrag crypto a f).2
      (taken (recvframeChkDefrag crypto a f).1 + hand) := by
  have hqueue := chkDefragQueue_moves h
  unfold recvframeChkDefrag
  split
  · next heq => simpa [heq] using hqueue
  · next g a₁ heq =>
    rw [heq] at hqueue
    split
    · have hmic : Moves a₁ (g.id ::ₘ hand) (recvframeChkmic crypto a₁ g).2.2 (g.id ::ₘ hand) :=
        (recvframeChkmic_keeps crypto a₁ g).moves
      have hmoves := hqueue.trans hmic
      rw [← recvframeChkmic_id crypto a₁ g] at hmoves
      split
      · next heq' =>
        rw [heq'] at hmoves
        exact hmoves
      · next heq' =>
        rw [heq'] at hmoves
        rw [taken_none, zero_add]
        exact hmoves.trans (rtwFreeRecvframe_moves (hmoves.owned h))
    · exact hqueue

theorem surplus_le_recvframeChkDefrag (a : Adapter) (f : RecvFrame) :
    a.surplus ≤ (recvframeChkDefrag crypto a f).2.surplus := by
  have hqueue := surplus_le_chkDefragQueue a f
  unfold recvframeChkDefrag
  split
  · next heq => simpa [heq] using hqueue
  · next g a₁ heq =>
    rw [heq] at hqueue
    split
    · have hmoves := hqueue.trans (recvframeChkmic_keeps crypto a₁ g).surplus.ge
      split
      · next heq' => simpa [heq'] using hmoves
      · next heq' =>
        rw [heq'] at hmoves
        exact hmoves.trans (surplus_le_rtwFreeRecvframe _ _)
    · exact hqueue

/-! ### Indication -/

variable (env : Env)

/-- `recv_process_mpdu` gives the descriptor back, whatever becomes of the MPDU. -/
theorem recvProcessMpdu_eq_free (a : Adapter) (f : RecvFrame) :
    ∃ es, (recvProcessMpdu env a f).2 = rtwFreeRecvframe (a.emit es) f.id := by
  simp only [recvProcessMpdu, amsduToMsdu, emit_emit]
  repeat' split
  all_goals exact ⟨_, rfl⟩

theorem emit_keeps (a : Adapter) (es : List RxEvent) : a.Keeps (a.emit es) := ⟨rfl, rfl, rfl⟩

theorem recvProcessMpdu_moves (h : Owned a (f.id ::ₘ hand)) :
    Moves a (f.id ::ₘ hand) (recvProcessMpdu env a f).2 hand := by
  obtain ⟨es, hes⟩ := recvProcessMpdu_eq_free env a f
  have hemit : Moves a (f.id ::ₘ hand) (a.emit es) (f.id ::ₘ hand) := (emit_keeps a es).moves
  rw [hes]
  exact hemit.trans (rtwFreeRecvframe_moves (hemit.owned h))

theorem surplus_le_recvProcessMpdu (a : Adapter) (f : RecvFrame) :
    a.surplus ≤ (recvProcessMpdu env a f).2.surplus := by
  obtain ⟨es, hes⟩ := recvProcessMpdu_eq_free env a f
  rw [hes]
  exact surplus_le_rtwFreeRecvframe (a.emit es) f.id

theorem processMpdus_moves {fs : List RecvFrame} (h : Owned a (idsOf fs + hand)) :
    Moves a (idsOf fs + hand) (processMpdus env a fs) hand :=
  Ledger.moves_foldl (L := recvLedger) (fun _ _ _ hx => recvProcessMpdu_moves env hx) h

theorem surplus_le_processMpdus (a : Adapter) (fs : List RecvFrame) :
    a.surplus ≤ (processMpdus env a fs).surplus :=
  Ledger.surplus_le_foldl (L := recvLedger) (fun _ _ => surplus_le_recvProcessMpdu env _ _) fs a

theorem setReorder_moves {p : StaId × Tid} {c : RecvReorderCtrl} {fs : List RecvFrame}
    (h : (fs ++ c.pendingRecvframeQueue).Perm (f :: (a.reorder p).pendingRecvframeQueue)) :
    Moves a (f.id ::ₘ hand) (a.setReorder p c) (idsOf fs + hand) := by
  refine ⟨?_, rfl⟩
  have hset := census_setReorder a p c
  have hids := idsOf_perm h
  rw [idsOf_append, idsOf_cons, ← Multiset.singleton_add] at hids
  refine add_right_cancel (b := idsOf (a.reorder p).pendingRecvframeQueue) ?_
  calc (a.setReorder p c).census + (idsOf fs + hand) + idsOf (a.reorder p).pendingRecvframeQueue
      = (a.setReorder p c).census + idsOf (a.reorder p).pendingRecvframeQueue +
          (idsOf fs + hand) := add_right_comm _ _ _
    _ = a.census + (idsOf fs + idsOf c.pendingRecvframeQueue) + hand := by
        rw [hset]
        abel
    _ = a.census + f.id ::ₘ hand + idsOf (a.reorder p).pendingRecvframeQueue := by
        rw [hids, ← Multiset.singleton_add]
        abel

def reorderHand (ret : Ret) (f : RecvFrame) : Multiset ℕ := if ret = .rxHandled then 0 else {f.id}

/-- What `recv_indicatepkt_reorder` does to its window: nothing to the queue, or the frame goes in
and frames come out. -/
theorem recvIndicatepktReorder_cases (c : RecvReorderCtrl) (f : RecvFrame) :
    ((c.recvIndicatepktReorder f).1 ≠ .rxHandled ∧ (c.recvIndicatepktReorder f).2.2 = [] ∧
        (c.recvIndicatepktReorder f).2.1.pendingRecvframeQueue = c.pendingRecvframeQueue) ∨
      ((c.recvIndicatepktReorder f).1 = .rxHandled ∧
        ((c.recvIndicatepktReorder f).2.2 ++
          (c.recvIndicatepktReorder f).2.1.pendingRecvframeQueue).Perm
            (f :: c.pendingRecvframeQueue)) := by
  unfold RecvReorderCtrl.recvIndicatepktReorder
  split
  · exact Or.inl ⟨nofun, rfl, rfl⟩
  · obtain ⟨hret, hfs, hqueue⟩ | ⟨hret, hperm⟩ := indicatepkt_cases c f
    · exact Or.inl ⟨by rw [hret]; decide, hfs, hqueue⟩
    · exact Or.inr ⟨hret, hperm⟩

/-- A frame that the window does not take leaves the descriptors where they are. -/
theorem recvIndicatepktReorder_keeps (h : (recvIndicatepktReorder env a f).1 ≠ .rxHandled) :
    a.Keeps (recvIndicatepktReorder env a f).2 := by
  unfold recvIndicatepktReorder at h ⊢
  split
  · exact Adapter.Keeps.refl a
  · next ctrl hctrl =>
    simp only [hctrl] at h
    obtain ⟨-, hfs, hqueue⟩ | ⟨hret, -⟩ := recvIndicatepktReorder_cases (a.reorder ctrl) f
    · have hkeeps : a.Keeps (a.setReorder ctrl ((a.reorder ctrl).recvIndicatepktReorder f).2.1) :=
        setReorder_keeps hqueue
      simp only [hfs, processMpdus, List.foldl_nil]
      exact hkeeps
    · exact absurd hret h

theorem recvIndicatepktReorder_moves (h : Owned a (f.id ::ₘ hand)) :
    Moves a (f.id ::ₘ hand) (recvIndicatepktReorder env a f).2
      (reorderHand (recvIndicatepktReorder env a f).1 f + hand) := by
  unfold recvIndicatepktReorder
  split
  · exact Ledger.Moves.refl
  · next ctrl _ =>
    extract_lets r
    obtain ⟨hret, hfs, hqueue⟩ | ⟨hret, hperm⟩ :=
      recvIndicatepktReorder_cases (a.reorder ctrl) f
    · have hkeeps : a.Keeps (a.setReorder ctrl r.2.1) := setReorder_keeps hqueue
      simp only [r, hfs, processMpdus, List.foldl_nil, reorderHand, if_neg hret]
      exact hkeeps.moves
    · have hset : Moves a (f.id ::ₘ hand) (a.setReorder ctrl r.2.1) (idsOf r.2.2 + hand) :=
        setReorder_moves hperm
      simp only [r, hret, reorderHand, if_true, zero_add]
      exact hset.trans (processMpdus_moves env (hset.owned h))

theorem surplus_le_recvIndicatepktReorder (a : Adapter) (f : RecvFrame) :
    a.surplus ≤ (recvIndicatepktReorder env a f).2.surplus := by
  unfold recvIndicatepktReorder
  split
  · exact le_rfl
  · next ctrl _ => exact surplus_le_processMpdus env (a.setReorder ctrl _) _

end Rtl88x2eu
