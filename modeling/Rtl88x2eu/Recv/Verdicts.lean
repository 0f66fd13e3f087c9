import Rtl88x2eu.Recv.Ownership

/-!
# What the receive path asks of a frame

`decryptor`, `recvframe_chk_defrag`, `portctrl` and the reorder window decide on a frame by its
bytes, by the keys of the adapter and by what waits in its queues. Each decision is a predicate on
the frame and on the adapter as it is before `recv_func_posthandle`: the stages in between leave
alone what it reads.

## Main definitions

* `opens`, `opened`: `decryptor` passes the frame, and what it makes of it
* `mpduOf`
* `micPasses`, `portPasses`
* `RecvReorderCtrl.accepts`, `windowTakes`, `windowRefuses`: the reorder window
* `Adapter.SameGates`

## Main results

* `decryptor_verdict`, `recvframeChkDefrag_fst`, `portctrl_eq`, `recvIndicatepktReorder_fst`
-/

namespace Rtl88x2eu

variable {a a' : Adapter} {f g : RecvFrame} {s : StaId} {hand : Multiset ℕ}

/-! ## Decryption -/

/-- The cipher of a frame is still to undo. -/
def RecvFrame.isSealed (f : RecvFrame) : Bool :=
  f.attrib.encrypt ≠ .noPrivacy && !f.attrib.bdecrypted

/-- A frame with the key index of its IV. -/
def RecvFrame.indexed (f : RecvFrame) : RecvFrame :=
  if f.attrib.encrypt ≠ .noPrivacy then
    { f with attrib := { f.attrib with keyIndex := ivKeyIndex (f.rxData.drop f.attrib.hdrlen) } }
  else f

/-- A frame is in the clear, or its cipher verifies it. -/
def opens (crypto : Crypto) (a : Adapter) (f : RecvFrame) : Bool :=
  !f.isSealed || (swDecrypt crypto a f.indexed).1

/-- A frame behind `decryptor`. -/
def opened (crypto : Crypto) (a : Adapter) (f : RecvFrame) : RecvFrame :=
  (if f.isSealed then (swDecrypt crypto a f.indexed).2 else f.indexed).setBdecrypted

theorem decryptor_verdict (crypto : Crypto) (a : Adapter) (f : RecvFrame) : ∃ hw,
    decryptor crypto a f = if opens crypto a f then
      (some (opened crypto a f), a.setHwDecrypted hw)
    else (none, rtwFreeRecvframe (a.setHwDecrypted hw) f.id) := by
  have hsw : ∀ (hw : Bool) (g : RecvFrame),
      swDecrypt crypto (a.setHwDecrypted hw) g = swDecrypt crypto a g := fun _ _ => rfl
  have hindexed : f.indexed.attrib.encrypt = f.attrib.encrypt ∧
      f.indexed.attrib.bdecrypted = f.attrib.bdecrypted ∧ f.indexed.id = f.id := by
    unfold RecvFrame.indexed
    split <;> exact ⟨rfl, rfl, rfl⟩
  have hself : a = a.setHwDecrypted a.securitypriv.hwDecrypted := rfl
  unfold decryptor opens opened RecvFrame.isSealed
  extract_lets iv p f' a₁ r
  have hf' : f' = f.indexed := rfl
  clear_value f'
  subst hf'
  rw [hindexed.1, hindexed.2.1, hindexed.2.2]
  by_cases hsealed : f.attrib.encrypt ≠ .noPrivacy ∧ !f.attrib.bdecrypted
  · have hstate : ∃ hw, a₁ = a.setHwDecrypted hw := by
      unfold a₁
      split
      · exact ⟨_, rfl⟩
      · exact ⟨_, hself⟩
    obtain ⟨hw, hhw⟩ := hstate
    refine ⟨hw, ?_⟩
    have hr : r = swDecrypt crypto a f.indexed := by
      unfold r
      rw [hhw]
      exact hsw hw _
    rw [if_pos hsealed, hr, hhw]
    simp [hsealed.1, hsealed.2]
  · have hclear : (f.attrib.encrypt ≠ .noPrivacy && !f.attrib.bdecrypted) = false := by
      simpa using hsealed
    rw [if_neg hsealed]
    simp only [hclear, Bool.not_false, Bool.true_or, Bool.false_eq_true, if_true, if_false]
    split
    · exact ⟨true, rfl⟩
    · exact ⟨_, rfl⟩

/-- `decryptor` changes the bytes of a frame, its key index and `bdecrypted`. -/
theorem opened_eq (crypto : Crypto) (a : Adapter) (f : RecvFrame) :
    ∃ d k, opened crypto a f = f.decrypted d k := by
  have hindexed : ∃ k, f.indexed = { f with attrib := { f.attrib with keyIndex := k } } := by
    unfold RecvFrame.indexed
    split
    · exact ⟨_, rfl⟩
    · exact ⟨f.attrib.keyIndex, rfl⟩
  obtain ⟨k, hk⟩ := hindexed
  unfold opened
  split
  · obtain ⟨d, hd⟩ := swDecrypt_frame crypto a f.indexed
    exact ⟨d, k, by rw [hd, hk]; rfl⟩
  · exact ⟨f.rxData, k, by rw [hk]; rfl⟩

/-! ## Adapters that decide alike -/

/-- A station without what the handling of its frames changes: queues, windows and counters. -/
def StaInfo.rest (p : StaInfo) : StaInfo :=
  { p with defragQ := [], recvreorderCtrl := fun _ => {}, staStats := {} }

/-- Two adapters have the same stations with the same keys, ports and caches. -/
structure Adapter.SameGates (a a' : Adapter) : Prop where
  stainfo : ∀ m, rtwGetStainfo a' m = rtwGetStainfo a m
  authAlgrthm : a'.securitypriv.dot11AuthAlgrthm = a.securitypriv.dot11AuthAlgrthm
  binstallGrpkey : a'.securitypriv.binstallGrpkey = a.securitypriv.binstallGrpkey
  grprxmickey : a'.securitypriv.dot118021XGrprxmickey = a.securitypriv.dot118021XGrprxmickey
  rest : ∀ s, (a'.sta s).rest = (a.sta s).rest

namespace Adapter.SameGates

theorem refl (a : Adapter) : a.SameGates a :=
  ⟨fun _ => rfl, rfl, rfl, rfl, fun _ => rfl⟩

theorem trans {a'' : Adapter} (h : a.SameGates a') (h' : a'.SameGates a'') : a.SameGates a'' :=
  ⟨fun m => (h'.stainfo m).trans (h.stainfo m), h'.authAlgrthm.trans h.authAlgrthm,
    h'.binstallGrpkey.trans h.binstallGrpkey, h'.grprxmickey.trans h.grprxmickey,
    fun s => (h'.rest s).trans (h.rest s)⟩

theorem rxmickey (h : a.SameGates a') (s : StaId) :
    (a'.sta s).dot11tkiprxmickey = (a.sta s).dot11tkiprxmickey := by
  have hrest := congrArg StaInfo.dot11tkiprxmickey (h.rest s)
  exact hrest

theorem blocked (h : a.SameGates a') (s : StaId) :
    (a'.sta s).ieee8021xBlocked = (a.sta s).ieee8021xBlocked := by
  have hrest := congrArg StaInfo.ieee8021xBlocked (h.rest s)
  exact hrest

end Adapter.SameGates

theorem setHwDecrypted_sameGates (a : Adapter) (hw : Bool) : a.SameGates (a.setHwDecrypted hw) :=
  ⟨fun _ => rfl, rfl, rfl, rfl, fun _ => rfl⟩

theorem rtwFreeRecvframe_sameGates (a : Adapter) (id : ℕ) :
    a.SameGates (rtwFreeRecvframe a id) :=
  ⟨fun _ => rfl, rfl, rfl, rfl, fun _ => rfl⟩

theorem rtwFreeRecvframeQueue_sameGates (a : Adapter) (q : List RecvFrame) :
    a.SameGates (rtwFreeRecvframeQueue a q) := by
  induction q generalizing a with
  | nil => exact Adapter.SameGates.refl a
  | cons f q ih => exact (rtwFreeRecvframe_sameGates a f.id).trans (ih _)

theorem setSta_sameGates {p : StaInfo} (h : p.rest = (a.sta s).rest) :
    a.SameGates (a.setSta s p) := by
  have hrest : ∀ i, ((a.setSta s p).sta i).rest = (a.sta i).rest := by
    intro i
    by_cases hi : i = s
    · rw [hi, setSta_sta, h]
    · rw [setSta_sta_of_ne a p hi]
  have haddr : ∀ i, ((a.setSta s p).sta i).macAddr = (a.sta i).macAddr := by
    intro i
    have hi := congrArg StaInfo.macAddr (hrest i)
    exact hi
  refine ⟨fun m => ?_, rfl, rfl, rfl, hrest⟩
  unfold rtwGetStainfo
  simp only [haddr]
  rfl

theorem setDefragQ_sameGates (a : Adapter) (s : StaId) (q : List RecvFrame) :
    a.SameGates (a.setDefragQ s q) := setSta_sameGates rfl

theorem queueFragment_sameGates (a : Adapter) (s : StaId) (f : RecvFrame) :
    a.SameGates (a.queueFragment s f) := by
  have hset := setDefragQ_sameGates a s ((a.sta s).defragQ ++ [f])
  exact hset.trans ⟨fun _ => rfl, rfl, rfl, rfl, fun _ => rfl⟩

theorem recvframeDefrag_sameGates (a : Adapter) (s : StaId) :
    a.SameGates (recvframeDefrag a s).2 := by
  unfold recvframeDefrag
  split
  · exact Adapter.SameGates.refl a
  · next first rest _ =>
    have hset := setDefragQ_sameGates a s rest
    dsimp only
    split
    · exact hset.trans (rtwFreeRecvframeQueue_sameGates _ rest)
    · exact (hset.trans (rtwFreeRecvframe_sameGates _ _)).trans
        (rtwFreeRecvframeQueue_sameGates _ rest)

theorem chkDefragQueue_sameGates (a : Adapter) (f : RecvFrame) :
    a.SameGates (chkDefragQueue a f).2 := by
  unfold chkDefragQueue
  split
  · exact Adapter.SameGates.refl a
  split
  · exact rtwFreeRecvframe_sameGates a f.id
  split
  · exact rtwFreeRecvframe_sameGates a f.id
  · unfold queueDefrag
    split
    · dsimp only
      split
      · exact (rtwFreeRecvframeQueue_sameGates a _).trans (queueFragment_sameGates _ _ _)
      · exact queueFragment_sameGates a _ _
    · exact (queueFragment_sameGates a _ _).trans (recvframeDefrag_sameGates _ _)

/-! ## Fragments -/

/-- A frame is an MPDU of its own. -/
def RecvFrame.isWhole (f : RecvFrame) : Bool := !f.attrib.mfrag && f.attrib.fragNum = 0

/-- The fragments put together: numbered from zero on, with consecutive packet numbers and one key,
in a descriptor with room for all. -/
def assemble : List RecvFrame → Option RecvFrame
  | [] => none
  | first :: rest =>
    if first.attrib.fragNum = 0 then
      defragLoop first 1 (if first.attrib.encrypt.isAead then ccmphPn first else 0) rest
    else none

/-- The fragments that a last fragment meets in the queue of its station, with itself. -/
def fragmentsOf (a : Adapter) (f : RecvFrame) : List RecvFrame :=
  match defragSta a f with
  | none => []
  | some s => (a.sta s).defragQ ++ [f.setKeytrack (a.sta s).keytrack]

/-- The MPDU that a frame is, or that it completes as the last fragment. -/
def mpduOf (a : Adapter) (f : RecvFrame) : Option RecvFrame :=
  if f.isWhole then some f
  else if f.attrib.mfrag || f.attrib.ra.isMcast then none
  else assemble (fragmentsOf a f)

theorem recvframeDefrag_fst (a : Adapter) (s : StaId) :
    (recvframeDefrag a s).1 = assemble (a.sta s).defragQ := by
  unfold recvframeDefrag assemble
  cases (a.sta s).defragQ with
  | nil => rfl
  | cons first rest =>
    dsimp only
    split
    · next heq => exact heq.symm
    · next heq => exact heq.symm

theorem chkDefragQueue_fst (a : Adapter) (f : RecvFrame) :
    (chkDefragQueue a f).1 = mpduOf a f := by
  unfold chkDefragQueue mpduOf RecvFrame.isWhole fragmentsOf
  by_cases hwhole : !f.attrib.mfrag ∧ f.attrib.fragNum = 0
  · simp [hwhole.1, hwhole.2]
  have hno : (!f.attrib.mfrag && decide (f.attrib.fragNum = 0)) = false := by simpa using hwhole
  rw [if_neg hwhole, hno]
  by_cases hmcast : f.attrib.ra.isMcast
  · simp [hmcast]
  cases hsta : defragSta a f with
  | none => simp [hmcast, assemble]
  | some s =>
    by_cases hmfrag : f.attrib.mfrag
    · simp [hmcast, hmfrag, queueDefrag, RecvFrame.setKeytrack]
    · simp only [hmcast, hmfrag, queueDefrag, RecvFrame.setKeytrack, Bool.false_or,
        Bool.false_eq_true, if_false, recvframeDefrag_fst]
      simp [Adapter.queueFragment, Adapter.setDefragQ, Adapter.emit]

/-! ## The MIC and the port -/

/-- The Michael code of an MPDU under TKIP is right. -/
def micPasses (crypto : Crypto) (a : Adapter) (g : RecvFrame) : Bool :=
  !g.attrib.privacy || (recvframeChkmic crypto a g).1

/-- An MPDU without its Michael code. -/
def behindMic (crypto : Crypto) (a : Adapter) (g : RecvFrame) : RecvFrame :=
  if g.attrib.privacy then (recvframeChkmic crypto a g).2.1 else g

theorem recvframeChkmic_congr (crypto : Crypto) (h : a.SameGates a') (g : RecvFrame) :
    (recvframeChkmic crypto a' g).1 = (recvframeChkmic crypto a g).1 ∧
      (recvframeChkmic crypto a' g).2.1 = (recvframeChkmic crypto a g).2.1 := by
  unfold recvframeChkmic
  rw [h.stainfo, h.binstallGrpkey, h.grprxmickey]
  split
  · exact ⟨rfl, rfl⟩
  split
  · exact ⟨rfl, rfl⟩
  · rw [h.rxmickey]
    split <;> exact ⟨rfl, rfl⟩

theorem recvframeChkmic_sameGates (crypto : Crypto) (a : Adapter) (g : RecvFrame) :
    a.SameGates (recvframeChkmic crypto a g).2.2 := by
  unfold recvframeChkmic
  split
  · exact Adapter.SameGates.refl a
  split
  · exact Adapter.SameGates.refl a
  split
  · exact Adapter.SameGates.refl a
  · extract_lets
    unfold Adapter.noteGrpkey
    split
    · exact ⟨fun _ => rfl, rfl, rfl, rfl, fun _ => rfl⟩
    · exact Adapter.SameGates.refl a

theorem recvframeChkDefrag_sameGates (crypto : Crypto) (a : Adapter) (f : RecvFrame) :
    a.SameGates (recvframeChkDefrag crypto a f).2 := by
  have hqueue := chkDefragQueue_sameGates a f
  unfold recvframeChkDefrag
  split
  · next heq =>
    rw [heq] at hqueue
    exact hqueue
  · next g a₁ heq =>
    rw [heq] at hqueue
    have hmic := hqueue.trans (recvframeChkmic_sameGates crypto a₁ g)
    split
    · split
      · next heq' =>
        rw [heq'] at hmic
        exact hmic
      · next heq' =>
        rw [heq'] at hmic
        exact hmic.trans (rtwFreeRecvframe_sameGates _ _)
    · exact hqueue

theorem micPasses_congr (crypto : Crypto) (h : a.SameGates a') (g : RecvFrame) :
    micPasses crypto a' g = micPasses crypto a g ∧
      behindMic crypto a' g = behindMic crypto a g := by
  obtain ⟨hret, hframe⟩ := recvframeChkmic_congr crypto h g
  unfold micPasses behindMic
  rw [hret, hframe]
  exact ⟨rfl, rfl⟩

/-- `recvframe_chk_defrag` hands on the MPDU of a frame if its MIC is right. -/
theorem recvframeChkDefrag_fst (crypto : Crypto) (a : Adapter) (f : RecvFrame) :
    (recvframeChkDefrag crypto a f).1 = (mpduOf a f).bind fun g =>
      if micPasses crypto a g then some (behindMic crypto a g) else none := by
  have hfst := chkDefragQueue_fst a f
  have hgates := chkDefragQueue_sameGates a f
  unfold recvframeChkDefrag micPasses behindMic
  rw [← hfst]
  split
  · next heq => simp [heq]
  · next g a₁ heq =>
    rw [heq] at hgates
    obtain ⟨hret, hframe⟩ := recvframeChkmic_congr crypto hgates g
    rw [heq, Option.bind_some, ← hret, ← hframe]
    rcases hmic : recvframeChkmic crypto a₁ g with ⟨ok, g', a₂⟩
    cases hprivacy : g.attrib.privacy <;> cases ok <;> simp

/-- The port of the transmitter is open, or the frame is EAPOL. -/
def portPasses (a : Adapter) (g : RecvFrame) : Bool :=
  !(a.securitypriv.dot11AuthAlgrthm = .dot8021X && match rtwGetStainfo a g.attrib.ta with
    | some s => (a.sta s).ieee8021xBlocked && etherType g ≠ ethPEapol
    | none => false)

theorem portctrl_eq (a : Adapter) (g : RecvFrame) :
    portctrl a g = if portPasses a g then (some g, a) else (none, rtwFreeRecvframe a g.id) := by
  unfold portctrl portPasses
  by_cases hauth : a.securitypriv.dot11AuthAlgrthm = .dot8021X
  · cases hsta : rtwGetStainfo a g.attrib.ta with
    | none => simp [hauth]
    | some s =>
      by_cases hblocked : (a.sta s).ieee8021xBlocked ∧ etherType g ≠ ethPEapol
      · simp [hauth, hblocked.1, hblocked.2]
      · have hno : ((a.sta s).ieee8021xBlocked && decide (etherType g ≠ ethPEapol)) = false := by
          simpa using hblocked
        simp only [hauth, if_true, if_neg hblocked, hno, decide_true, Bool.and_false,
          Bool.not_false]
  · simp [hauth]

theorem portPasses_congr (h : a.SameGates a') (g : RecvFrame) :
    portPasses a' g = portPasses a g := by
  unfold portPasses
  rw [h.stainfo, h.authAlgrthm]
  cases rtwGetStainfo a g.attrib.ta with
  | none => rfl
  | some s => simp only [h.blocked]

/-! ## The reorder window -/

/-- A queue has a sequence number, as far as it is searched for its place. -/
def isQueued (seqNum : ℕ) : List RecvFrame → Bool
  | [] => false
  | next :: q =>
    if snLess next.attrib.seqNum seqNum then isQueued seqNum q else next.attrib.seqNum = seqNum

/-- A window takes a sequence number: it starts anew or has not moved past the number, and no
frame that waits has it. -/
def RecvReorderCtrl.accepts (c : RecvReorderCtrl) (seqNum : ℕ) : Bool :=
  (c.recvAckOrTimeout || c.recvReorderWow || c.indicateSeq = 0xFFFF ||
      !snLess seqNum c.indicateSeq) && !isQueued seqNum c.pendingRecvframeQueue

/-- A frame goes to an enabled window. -/
def windowed (a : Adapter) (f : RecvFrame) : Option RecvReorderCtrl :=
  if f.attrib.qos then (f.preorderCtrl.map a.reorder).filter (·.enable) else none

/-- The window of a frame takes it. -/
def windowTakes (a : Adapter) (f : RecvFrame) : Bool :=
  (windowed a f).any (·.accepts f.attrib.seqNum)

/-- The window of a frame refuses it. -/
def windowRefuses (a : Adapter) (f : RecvFrame) : Bool :=
  (windowed a f).any (!·.accepts f.attrib.seqNum)

theorem enqueueReorderRecvframe_isSome (f : RecvFrame) (q : List RecvFrame) :
    (enqueueReorderRecvframe f q).isSome = !isQueued f.attrib.seqNum q := by
  induction q with
  | nil => rfl
  | cons next q ih =>
    unfold enqueueReorderRecvframe isQueued
    split
    · rw [Option.isSome_map, ih]
    · split
      · next heq => simp [heq]
      · next hne => simp [hne]

theorem checkIndicateSeq_fst (c : RecvReorderCtrl) (seqNum : ℕ) :
    (checkIndicateSeq c seqNum).1 = (c.indicateSeq = 0xFFFF || !snLess seqNum c.indicateSeq) := by
  have hself : snLess seqNum seqNum = false := by simp [snLess]
  unfold checkIndicateSeq
  by_cases hnew : c.indicateSeq = 0xFFFF
  · simp [hnew, hself]
  · simp only [hnew, if_false, decide_false, Bool.false_or]
    cases hless : snLess seqNum c.indicateSeq with
    | true => simp
    | false =>
      simp only [Bool.false_eq_true, if_false, Bool.not_false]
      split_ifs <;> rfl

theorem indicatepkt_fst (c : RecvReorderCtrl) (f : RecvFrame) :
    (c.indicatepkt f).1 = if c.accepts f.attrib.seqNum then .rxHandled else .fail := by
  have hfst : (checkIndicateSeq c.clearAbba f.attrib.seqNum).1 =
      (c.recvAckOrTimeout || c.recvReorderWow || c.indicateSeq = 0xFFFF ||
        !snLess f.attrib.seqNum c.indicateSeq) := by
    rw [checkIndicateSeq_fst]
    cases hbit : c.recvAckOrTimeout || c.recvReorderWow <;>
      simp [RecvReorderCtrl.clearAbba, hbit]
  have hqueue := enqueueReorderRecvframe_isSome f c.pendingRecvframeQueue
  unfold RecvReorderCtrl.indicatepkt RecvReorderCtrl.accepts
  extract_lets checked
  rw [hfst, checkIndicateSeq_queue, clearAbba_queue]
  cases henq : enqueueReorderRecvframe f c.pendingRecvframeQueue with
  | none =>
    rw [henq] at hqueue
    simp only [Option.isSome_none] at hqueue
    rw [← hqueue]
    split <;> simp
  | some q =>
    rw [henq] at hqueue
    simp only [Option.isSome_some] at hqueue
    rw [← hqueue]
    split <;> simp_all

/-- The answer of `recv_indicatepkt_reorder`. -/
theorem recvIndicatepktReorder_fst (env : Env) (a : Adapter) (f : RecvFrame) :
    (recvIndicatepktReorder env a f).1 =
      if windowTakes a f then .rxHandled else if windowRefuses a f then .fail else .success := by
  unfold recvIndicatepktReorder windowTakes windowRefuses windowed
  cases f.preorderCtrl with
  | none => cases f.attrib.qos <;> simp
  | some p =>
    unfold RecvReorderCtrl.recvIndicatepktReorder
    cases hqos : f.attrib.qos with
    | false => simp
    | true =>
      cases henable : (a.reorder p).enable with
      | false => simp [henable]
      | true =>
        have hret := indicatepkt_fst (a.reorder p) f
        simp only [henable, Bool.not_true, Bool.or_self, Bool.false_eq_true, if_false, if_true,
          Option.map_some, Option.filter_some, Option.any_some, hret]
        cases (a.reorder p).accepts f.attrib.seqNum <;> simp

theorem windowTakes_congr (h : ∀ p, a'.reorder p = a.reorder p) (f : RecvFrame) :
    windowTakes a' f = windowTakes a f ∧ windowRefuses a' f = windowRefuses a f := by
  have hreorder : a'.reorder = a.reorder := funext h
  unfold windowTakes windowRefuses windowed
  rw [hreorder]
  exact ⟨rfl, rfl⟩

theorem not_windowTakes_of_refuses (h : windowRefuses a f) : windowTakes a f = false := by
  unfold windowRefuses at h
  unfold windowTakes
  cases hwin : windowed a f with
  | none => rfl
  | some c => simpa [hwin] using h

theorem reorder_countRxStats (a : Adapter) (f : RecvFrame) (sta : Option StaId)
    (p : StaId × Tid) : (countRxStats a f sta).reorder p = a.reorder p := by
  unfold countRxStats
  extract_lets a₁
  split
  · rfl
  · next s _ =>
    by_cases hp : p.1 = s
    · simp [Adapter.reorder, hp, a₁]
    · simp only [Adapter.reorder, setSta_sta_of_ne _ _ hp, a₁]

theorem reorder_rtwFreeRecvframe {id : ℕ} {p : StaId × Tid}
    (h : id ∉ idsOf (a.reorder p).pendingRecvframeQueue) :
    (rtwFreeRecvframe a id).reorder p = a.reorder p := by
  have hqueue : (a.reorder p).pendingRecvframeQueue.filter (·.id ≠ id) =
      (a.reorder p).pendingRecvframeQueue := by
    refine List.filter_eq_self.mpr fun x hx => ?_
    have hne : x.id ≠ id := fun hid => h (hid ▸ List.mem_map_of_mem hx)
    simpa using hne
  have hfree : (rtwFreeRecvframe a id).reorder p = { a.reorder p with
      pendingRecvframeQueue := (a.reorder p).pendingRecvframeQueue.filter (·.id ≠ id) } := rfl
  rw [hfree, hqueue]

theorem reorder_rtwFreeRecvframeQueue {q : List RecvFrame} {p : StaId × Tid}
    (h : ∀ f ∈ q, f.id ∉ idsOf (a.reorder p).pendingRecvframeQueue) :
    (rtwFreeRecvframeQueue a q).reorder p = a.reorder p := by
  induction q generalizing a with
  | nil => rfl
  | cons f q ih =>
    have hfree := reorder_rtwFreeRecvframe (h f List.mem_cons_self)
    have hrest : (rtwFreeRecvframeQueue (rtwFreeRecvframe a f.id) q).reorder p =
        (rtwFreeRecvframe a f.id).reorder p := by
      refine ih fun g hg => ?_
      rw [hfree]
      exact h g (List.mem_cons_of_mem f hg)
    exact hrest.trans hfree

theorem reorder_setDefragQ (a : Adapter) (s : StaId) (q : List RecvFrame) (p : StaId × Tid) :
    (a.setDefragQ s q).reorder p = a.reorder p := by
  by_cases hp : p.1 = s
  · simp [Adapter.reorder, Adapter.setDefragQ, hp]
  · simp only [Adapter.reorder, Adapter.setDefragQ, setSta_sta_of_ne _ _ hp]

theorem reorder_queueFragment (a : Adapter) (s : StaId) (f : RecvFrame) (p : StaId × Tid) :
    (a.queueFragment s f).reorder p = a.reorder p :=
  reorder_setDefragQ a s ((a.sta s).defragQ ++ [f]) p

theorem reorder_recvframeDefrag {p : StaId × Tid}
    (h : ∀ f ∈ (a.sta s).defragQ, f.id ∉ idsOf (a.reorder p).pendingRecvframeQueue) :
    (recvframeDefrag a s).2.reorder p = a.reorder p := by
  unfold recvframeDefrag
  split
  · rfl
  · next first rest hq =>
    rw [hq] at h
    have hset := reorder_setDefragQ a s rest p
    have hrest : ∀ f ∈ rest, f.id ∉ idsOf (a.reorder p).pendingRecvframeQueue :=
      fun f hf => h f (List.mem_cons_of_mem first hf)
    dsimp only
    split
    · rw [reorder_rtwFreeRecvframeQueue (by rwa [hset]), hset]
    · have hfree := @reorder_rtwFreeRecvframe (a.setDefragQ s rest) first.id p
        (by rw [hset]; exact h first List.mem_cons_self)
      rw [reorder_rtwFreeRecvframeQueue (by rwa [hfree, hset]), hfree, hset]

/-- Defragmentation frees no frame of a window. -/
theorem reorder_chkDefragQueue (h : Owned a (f.id ::ₘ hand)) (p : StaId × Tid) :
    (chkDefragQueue a f).2.reorder p = a.reorder p := by
  have hself : f.id ∉ idsOf (a.reorder p).pendingRecvframeQueue :=
    fun hmem => h.notMem (Multiset.mem_of_le (window_le_census a p) hmem)
  have hwait : ∀ s, ∀ g ∈ (a.sta s).defragQ, g.id ∉ idsOf (a.reorder p).pendingRecvframeQueue :=
    fun s g hg => notMem_window_of_mem_defragQ (s := s) h (List.mem_map_of_mem hg) p
  unfold chkDefragQueue
  split
  · rfl
  split
  · exact reorder_rtwFreeRecvframe hself
  split
  · exact reorder_rtwFreeRecvframe hself
  · next s _ =>
    unfold queueDefrag
    split
    · dsimp only
      rw [reorder_queueFragment]
      split
      · exact reorder_rtwFreeRecvframeQueue (hwait s)
      · rfl
    · rw [reorder_recvframeDefrag, reorder_queueFragment]
      intro g hg
      rw [reorder_queueFragment]
      have hq : ((a.queueFragment s (f.setKeytrack (a.sta s).keytrack)).sta s).defragQ =
          (a.sta s).defragQ ++ [f.setKeytrack (a.sta s).keytrack] := by
        simp [Adapter.queueFragment, Adapter.setDefragQ, Adapter.emit]
      rw [hq] at hg
      rcases List.mem_append.mp hg with hg | hg
      · exact hwait s g hg
      · obtain rfl := List.mem_singleton.mp hg
        exact hself

theorem reorder_recvframeChkDefrag (crypto : Crypto) (h : Owned a (f.id ::ₘ hand))
    (hpass : recvframeChkDefrag crypto a f = (some g, a')) (p : StaId × Tid) :
    a'.reorder p = a.reorder p := by
  have hqueue := reorder_chkDefragQueue h p
  unfold recvframeChkDefrag at hpass
  split at hpass
  · cases hpass
  · next g₁ a₁ heq =>
    rw [heq] at hqueue
    split at hpass
    · have hmic : (recvframeChkmic crypto a₁ g₁).2.2.reorder p = a₁.reorder p := by
        unfold recvframeChkmic
        split
        · rfl
        split
        · rfl
        split
        · rfl
        · extract_lets
          unfold Adapter.noteGrpkey
          split <;> rfl
      split at hpass
      · next heq' =>
        rw [heq'] at hmic
        obtain ⟨-, rfl⟩ := Prod.mk.inj hpass
        exact hmic.trans hqueue
      · cases hpass
    · obtain ⟨-, rfl⟩ := Prod.mk.inj hpass
      exact hqueue

/-! ## Post-handling -/

/-- The MPDU that comes to the reorder window for a frame: the frame opens, it is an MPDU or
completes one, and the MIC and the port pass. -/
def handedOn (crypto : Crypto) (a : Adapter) (f : RecvFrame) : Option RecvFrame :=
  if opens crypto a f then
    (mpduOf a (opened crypto a f)).bind fun g =>
      if micPasses crypto a g && portPasses a (behindMic crypto a g) then
        some (behindMic crypto a g)
      else none
  else none

end Rtl88x2eu
