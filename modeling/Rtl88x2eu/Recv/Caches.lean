import Rtl88x2eu.Recv.Conservation

/-!
# The duplicate and packet number caches

The sequence control values and packet numbers that a station's frames are compared with. Only the
duplicate checks write them: nothing behind `decryptor` does.

## Main definitions

* `RxCaches`, `StaInfo.rxCaches`
* `Adapter.SameCaches`

## Main results

* `recvFuncPosthandle_sameCaches`
-/

namespace Rtl88x2eu

variable {env : Env} {a a' : Adapter} {f : RecvFrame} {s : StaId}

@[ext] structure RxCaches where
  tidRxseq : Tid → ℕ
  bmcTidRxseq : Tid → ℕ
  nonqosRxseq : ℕ
  nonqosBmcRxseq : ℕ
  iv : Tid → Bytes

def StaInfo.rxCaches (p : StaInfo) : RxCaches :=
  ⟨p.tidRxseq, p.bmcTidRxseq, p.nonqosRxseq, p.nonqosBmcRxseq, p.iv⟩

theorem prxseq_of_rxCaches {p q : StaInfo} (h : p.rxCaches = q.rxCaches) (attrib : RxPktAttrib)
    (t : Tid) : p.prxseq attrib t = q.prxseq attrib t := by
  obtain ⟨htid, hbmc, hnonqos, hnonqosBmc, -⟩ := RxCaches.mk.inj h
  unfold StaInfo.prxseq
  split
  · rw [hbmc]
  · rw [htid]
  · exact hnonqosBmc
  · exact hnonqos

theorem recvDecache_of_rxCaches (h : (a'.sta s).rxCaches = (a.sta s).rxCaches)
    (attrib : RxPktAttrib) : (recvDecache a' s attrib).1 = (recvDecache a s attrib).1 := by
  unfold recvDecache
  extract_lets
  rw [prxseq_of_rxCaches h]
  split_ifs <;> rfl

/-- No station's caches have changed. -/
def Adapter.SameCaches (a a' : Adapter) : Prop := ∀ s, (a'.sta s).rxCaches = (a.sta s).rxCaches

namespace Adapter.SameCaches

theorem refl (a : Adapter) : a.SameCaches a := fun _ => rfl

theorem trans {a'' : Adapter} (h : a.SameCaches a') (h' : a'.SameCaches a'') : a.SameCaches a'' :=
  fun s => (h' s).trans (h s)

theorem iv (h : a.SameCaches a') (s : StaId) : (a'.sta s).iv = (a.sta s).iv :=
  congrArg RxCaches.iv (h s)

/-- The value that a frame is compared with is the same. -/
theorem prxseq (h : a.SameCaches a') (s : StaId) (attrib : RxPktAttrib) (t : Tid) :
    (a'.sta s).prxseq attrib t = (a.sta s).prxseq attrib t :=
  prxseq_of_rxCaches (h s) attrib t

end Adapter.SameCaches

theorem Adapter.SameGates.sameCaches (h : a.SameGates a') : a.SameCaches a' := by
  intro s
  have hrest := congrArg StaInfo.rxCaches (h.rest s)
  exact hrest

theorem setSta_sameCaches {p : StaInfo} (h : p.rxCaches = (a.sta s).rxCaches) :
    a.SameCaches (a.setSta s p) := by
  intro i
  by_cases hi : i = s
  · rw [hi, setSta_sta, h]
  · rw [setSta_sta_of_ne a p hi]

theorem setReorder_sameCaches (a : Adapter) (p : StaId × Tid) (c : RecvReorderCtrl) :
    a.SameCaches (a.setReorder p c) :=
  setSta_sameCaches rfl

theorem rtwFreeRecvframe_sameCaches (a : Adapter) (id : ℕ) :
    a.SameCaches (rtwFreeRecvframe a id) :=
  fun _ => rfl

theorem rtwFreeRecvframeQueue_sameCaches (a : Adapter) (q : List RecvFrame) :
    a.SameCaches (rtwFreeRecvframeQueue a q) := (rtwFreeRecvframeQueue_sameGates a q).sameCaches

theorem emit_sameCaches (a : Adapter) (es : List RxEvent) : a.SameCaches (a.emit es) := fun _ => rfl

theorem countDrop_sameCaches (a : Adapter) : a.SameCaches a.countDrop := fun _ => rfl

theorem countRxStats_sameCaches (a : Adapter) (f : RecvFrame) (sta : Option StaId) :
    a.SameCaches (countRxStats a f sta) := by
  unfold countRxStats
  extract_lets a₁
  have hbytes : a.SameCaches a₁ := fun _ => rfl
  split
  · exact hbytes
  · exact hbytes.trans (setSta_sameCaches rfl)

theorem recvProcessMpdu_sameCaches (a : Adapter) (f : RecvFrame) :
    a.SameCaches (recvProcessMpdu env a f).2 := by
  obtain ⟨es, hes⟩ := recvProcessMpdu_eq_free env a f
  rw [hes]
  exact (emit_sameCaches a es).trans (rtwFreeRecvframe_sameCaches _ f.id)

theorem processMpdus_sameCaches (a : Adapter) (fs : List RecvFrame) :
    a.SameCaches (processMpdus env a fs) := by
  induction fs generalizing a with
  | nil => exact Adapter.SameCaches.refl a
  | cons f fs ih => exact (recvProcessMpdu_sameCaches a f).trans (ih _)

theorem recvIndicatepktReorder_sameCaches (a : Adapter) (f : RecvFrame) :
    a.SameCaches (recvIndicatepktReorder env a f).2 := by
  unfold recvIndicatepktReorder
  split
  · exact Adapter.SameCaches.refl a
  · next ctrl _ => exact (setReorder_sameCaches a ctrl _).trans (processMpdus_sameCaches _ _)

theorem setIseq_sameCaches (a : Adapter) (f : RecvFrame) (iseq : ℕ → ℕ) :
    a.SameCaches (setIseq a f iseq) := by
  unfold setIseq
  split
  · exact Adapter.SameCaches.refl a
  · exact setReorder_sameCaches a _ _

theorem posthandleIndicate_sameCaches (a : Adapter) (f g : RecvFrame) :
    a.SameCaches (posthandleIndicate env a f g).2 := by
  have hcount := countRxStats_sameCaches a g none
  have hreorder := hcount.trans (@recvIndicatepktReorder_sameCaches env _ g)
  unfold posthandleIndicate
  dsimp only
  split
  · next a₂ heq =>
    rw [heq] at hreorder
    exact (hreorder.trans (rtwFreeRecvframe_sameCaches a₂ f.id)).trans (countDrop_sameCaches _)
  · next heq =>
    rw [heq] at hreorder
    exact hreorder
  · next a₂ heq =>
    rw [heq] at hreorder
    have hmpdu := (hreorder.trans (setIseq_sameCaches a₂ g _)).trans
      (@recvProcessMpdu_sameCaches env (setIseq a₂ g fun _ => f.attrib.seqNum) g)
    have hset := hmpdu.trans (setIseq_sameCaches _ g fun iseq => (iseq + 1) % 4096)
    split
    · exact hset.trans (countDrop_sameCaches _)
    · exact hset

/-! ## Post-handling -/

theorem decryptor_sameGates (crypto : Crypto) (a : Adapter) (f : RecvFrame) :
    a.SameGates (decryptor crypto a f).2 := by
  obtain ⟨hw, hdec⟩ := decryptor_verdict crypto a f
  have hset := setHwDecrypted_sameGates a hw
  rw [hdec]
  split
  · exact hset
  · exact hset.trans (rtwFreeRecvframe_sameGates _ f.id)

theorem portctrl_sameGates (a : Adapter) (f : RecvFrame) : a.SameGates (portctrl a f).2 := by
  rw [portctrl_eq]
  split
  · exact Adapter.SameGates.refl a
  · exact rtwFreeRecvframe_sameGates a f.id

theorem beforeWindow_sameGates (crypto : Crypto) (a : Adapter) (f : RecvFrame) :
    a.SameGates (beforeWindow crypto a f).2 := by
  have hdec := decryptor_sameGates crypto a f
  obtain ⟨a₁, heq, hbefore⟩ | ⟨f₁, a₁, heq, hrest⟩ := beforeWindow_cases crypto a f
  · rw [heq] at hdec
    rw [hbefore]
    exact hdec
  rw [heq] at hdec
  have hdefrag := hdec.trans (recvframeChkDefrag_sameGates crypto a₁ f₁)
  obtain ⟨a₂, hchk, hbefore⟩ | ⟨g, a₂, hchk, hbefore⟩ := hrest
  · rw [hchk] at hdefrag
    rw [hbefore]
    exact hdefrag
  · rw [hchk] at hdefrag
    rw [hbefore]
    exact hdefrag.trans (portctrl_sameGates a₂ g)

/-- **Post-handling leaves the caches alone.** -/
theorem recvFuncPosthandle_sameCaches (a : Adapter) (f : RecvFrame) :
    a.SameCaches (recvFuncPosthandle env a f).2 := by
  have hbefore := (beforeWindow_sameGates env.crypto a f).sameCaches
  rw [recvFuncPosthandle_eq]
  rcases heq : beforeWindow env.crypto a f with ⟨_ | g, a₁⟩ <;> rw [heq] at hbefore
  · exact hbefore.trans (countDrop_sameCaches a₁)
  · exact hbefore.trans (posthandleIndicate_sameCaches a₁ _ g)

end Rtl88x2eu
