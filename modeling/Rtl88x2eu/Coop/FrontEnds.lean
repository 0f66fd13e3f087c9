import Rtl88x2eu.Coop.KernelPath
import Rtl88x2eu.Coop.Submit

/-!
# The two receive front ends

A frame reaches the stages behind decryption either through `validate_recv_frame` of the primary or
through the receive hook of a helper, which parses the header by hand. Both read the same bytes, but
the hook takes some attributes from the receive descriptor, leaves others at zero and forgets the HT
control field.

## Main definitions

* `HeaderAttribs`, `headerOf`, `HandsToDrain`, `parsesAlike`

## Main results

* `headerAttribs_eq_iff`: both front ends agree on a frame exactly if they parse it alike
-/

namespace Rtl88x2eu.Coop

/-- The attributes that the stages behind the front ends rely on. -/
structure HeaderAttribs where
  hdrlen : ℕ
  ivLen : ℕ
  icvLen : ℕ
  encrypt : SecurityType
  qos : Bool
  priority : ℕ
  amsdu : Bool
  seqNum : ℕ
  fragNum : ℕ
  mfrag : Bool
  ra : MacAddr
  ta : MacAddr
  src : MacAddr
  dst : MacAddr
  bssid : MacAddr
  preorderCtrl : Option (StaId × Tid)
deriving DecidableEq

def headerAttribs (f : RecvFrame) : HeaderAttribs :=
  let p := f.attrib
  { hdrlen := p.hdrlen, ivLen := p.ivLen, icvLen := p.icvLen, encrypt := p.encrypt, qos := p.qos
    priority := p.priority, amsdu := p.amsdu, seqNum := p.seqNum, fragNum := p.fragNum
    mfrag := p.mfrag, ra := p.ra, ta := p.ta, src := p.src, dst := p.dst, bssid := p.bssid
    preorderCtrl := f.preorderCtrl }

/-- The length of a header without the HT control field. -/
def baseHdrlen (w : Bytes) : ℕ := if subTypeQos w then wlanHdrA3QosLen else wlanHdrA3Len

/-- What the header of a frame says about them. -/
def headerOf (w : Bytes) (encrypt : SecurityType) (s : StaId) : HeaderAttribs :=
  let qos := subTypeQos w
  let down := getToFrDs w = 2
  { hdrlen := baseHdrlen w + if getOrder w then 4 else 0
    ivLen := encrypt.ivLen
    icvLen := encrypt.icvLen
    encrypt
    qos
    priority := if qos then getPriority w wlanHdrA3Len else 0
    amsdu := qos && getAMsdu w wlanHdrA3Len
    seqNum := getSequence w
    fragNum := getFragNum w
    mfrag := getMFrag w
    ra := getAddr1 w
    ta := getAddr2 w
    src := if down then getAddr3 w else getAddr2 w
    dst := if down then getAddr1 w else getAddr3 w
    bssid := if down then getAddr2 w else getAddr1 w
    preorderCtrl :=
      if qos ∧ !(getAddr1 w).isMcast then some (s, Tid.clamp (getPriority w wlanHdrA3Len))
      else none }

/-- The frame that a helper's frame becomes on the pending queue. -/
def HandsToDrain (w : World) (helper : AdapterId) (f g : RecvFrame) : Prop :=
  ∃ grp grp', w.grp = some grp ∧ (preRecvEntry w helper f).2.grp = some grp' ∧
    g ∈ grp'.pendingQueue ∧ g ∉ grp.pendingQueue

/-- A protected frame without HT control field, whose cipher the descriptor does not name and whose
A-MSDU and fragment bits it copies; a primary in MP mode takes address 2 for the source. -/
def parsesAlike (a : Adapter) (desc : RxDesc) (w : Bytes) : Bool :=
  getPrivacy w && desc.security = 0 && !getOrder w &&
    desc.amsdu = (subTypeQos w && getAMsdu w wlanHdrA3Len) && desc.mf = getMFrag w &&
    (a.fwState.ap || a.fwState.station || getAddr2 w = getAddr3 w)

/-! ## The front end of the primary -/

variable {env : Env} {a a' : Adapter} {f g : RecvFrame} {s s' : StaId} {p : RxPktAttrib}

structure SameCiphers (a a' : Adapter) (s : StaId) : Prop where
  auth : a'.securitypriv.dot11AuthAlgrthm = a.securitypriv.dot11AuthAlgrthm
  privacy : a'.securitypriv.dot11PrivacyAlgrthm = a.securitypriv.dot11PrivacyAlgrthm
  group : a'.securitypriv.dot118021XGrpPrivacy = a.securitypriv.dot118021XGrpPrivacy
  pairwise : (a'.sta s).dot118021XPrivacy = (a.sta s).dot118021XPrivacy

theorem SameCiphers.getEncryAlgo (h : SameCiphers a a' s) (bmcst : Bool) :
    getEncryAlgo a'.securitypriv (a'.sta s) bmcst =
      getEncryAlgo a.securitypriv (a.sta s) bmcst := by
  simp only [Rtl88x2eu.getEncryAlgo, h.auth, h.privacy, h.group, h.pairwise]

theorem SameCiphers.trans {a'' : Adapter} (h : SameCiphers a a' s) (h' : SameCiphers a' a'' s) :
    SameCiphers a a'' s :=
  ⟨h'.auth.trans h.auth, h'.privacy.trans h.privacy, h'.group.trans h.group,
    h'.pairwise.trans h.pairwise⟩

theorem sameCiphers_setSta {q : StaInfo} (h : q.dot118021XPrivacy = (a.sta s).dot118021XPrivacy) :
    SameCiphers a (a.setSta s q) s :=
  ⟨rfl, rfl, rfl, by rw [setSta_sta, h]⟩

theorem recvDecache_sameCiphers (a : Adapter) (s : StaId) (p : RxPktAttrib) :
    SameCiphers a (recvDecache a s p).2 s := by
  have hprxseq : ∀ (q : StaInfo) (t : Tid),
      (q.setPrxseq p t).dot118021XPrivacy = q.dot118021XPrivacy := by
    intro q t
    unfold StaInfo.setPrxseq
    split <;> rfl
  unfold recvDecache
  extract_lets
  split_ifs
  · exact ⟨rfl, rfl, rfl, rfl⟩
  · exact sameCiphers_setSta rfl
  · exact sameCiphers_setSta (hprxseq _ _)

theorem decacheDataFrame_sameCiphers (a : Adapter) (s : StaId) (f : RecvFrame) :
    SameCiphers a (decacheDataFrame a s f).2 s := by
  have hdecache := recvDecache_sameCiphers a s f.attrib
  unfold decacheDataFrame
  split
  · next heq => rwa [heq] at hdecache
  · next heq =>
    rw [heq] at hdecache
    apply hdecache.trans
    split
    · unfold recvBcastPnDecache
      extract_lets
      split_ifs <;> exact ⟨rfl, rfl, rfl, rfl⟩
    · unfold recvUcastPnDecache
      extract_lets
      split_ifs
      · exact ⟨rfl, rfl, rfl, rfl⟩
      · exact sameCiphers_setSta rfl
      · exact ⟨rfl, rfl, rfl, rfl⟩

theorem noteNonBe_sameCiphers (a : Adapter) (p : RxPktAttrib) (s : StaId) :
    SameCiphers a (a.noteNonBe p) s := by
  unfold Adapter.noteNonBe
  split <;> exact ⟨rfl, rfl, rfl, rfl⟩

theorem validateDataBody_success (h : validateDataBody a s f = (.success, g, a')) :
    g = setReorderEncrypt a s
      { f with attrib := parseQc f.rxData f.attrib, psta := some s, preorderCtrl := none } := by
  unfold validateDataBody at h
  extract_lets f₁ r g₁ at h
  split at h
  · cases h
  · obtain ⟨-, rfl, -⟩ : _ ∧ g₁ = g ∧ _ := by simpa [Prod.ext_iff] using h
    have hsame := (noteNonBe_sameCiphers a f₁.attrib s).trans
      (decacheDataFrame_sameCiphers (a.noteNonBe f₁.attrib) s f₁)
    simp only [g₁, r, setReorderEncrypt, setEncrypt, hsame.getEncryAlgo, f₁]

theorem rtwApRxDataValidateHdr_success (hdir : f.attrib.toFrDs ≠ 3)
    (h : rtwApRxDataValidateHdr a f = ((.success, p, some s), a')) :
    f.attrib.toFrDs = 1 ∧ a' = a ∧ rtwGetStainfo a (getAddr2 f.rxData) = some s ∧
      p = f.attrib.setAddrs (getAddr1 f.rxData) (getAddr2 f.rxData) (getAddr3 f.rxData)
        (getAddr2 f.rxData) (getAddr1 f.rxData) := by
  unfold rtwApRxDataValidateHdr at h
  extract_lets w p₀ p₁ at h
  split at h
  · cases h
  split at h
  · cases h
  next hto =>
    have hup : f.attrib.toFrDs = 1 := by
      by_contra hne
      exact hto ⟨hne, hdir⟩
    have hp₁ : p₁ = f.attrib.setAddrs (getAddr1 w) (getAddr2 w) (getAddr3 w) (getAddr2 w)
        (getAddr1 w) := if_pos hup
    split at h
    · cases h
    split at h
    · cases h
    next s' hsta =>
      rw [hp₁] at hsta h
      split at h
      · cases h
      · cases h
        exact ⟨hup, rfl, hsta, rfl⟩

theorem rtwStaRxDataValidateHdr_success (hdown : f.attrib.toFrDs = 2)
    (h : rtwStaRxDataValidateHdr a f = ((.success, p, some s), a')) :
    a' = a ∧ rtwGetStainfo a (getAddr2 f.rxData) = some s ∧
      p = f.attrib.setAddrs (getAddr1 f.rxData) (getAddr2 f.rxData) (getAddr1 f.rxData)
        (getAddr3 f.rxData) (getAddr2 f.rxData) := by
  unfold rtwStaRxDataValidateHdr at h
  extract_lets w p₀ p₁ p₂ p₃ p₄ at h
  have hp₃ : p₃ = { p₂ with dst := getAddr1 w, src := getAddr3 w } := if_pos hdown
  have hp₄ : p₄ = f.attrib.setAddrs (getAddr1 w) (getAddr2 w) (getAddr1 w) (getAddr3 w)
      (getAddr2 w) := by
    simp only [p₄, hp₃, p₂, p₀, RxPktAttrib.setAddrs]
  have hzero : ¬p₀.toFrDs = 0 := by simp [p₀, hdown]
  rw [if_neg hzero] at h
  split at h
  · cases h
  split at h
  · cases h
  split at h
  · cases h
  split at h
  · cases h
  next s' hsta =>
    rw [hp₄] at hsta h
    split at h
    · cases h
    · cases h
      exact ⟨rfl, hsta, rfl⟩

theorem validateDataHdrOther_success (hdown : f.attrib.toFrDs = 2)
    (h : validateDataHdrOther a f.rxData f.attrib = (.success, p, some s)) :
    rtwGetStainfo a (getAddr3 f.rxData) = some s ∧
      p = f.attrib.setAddrs (getAddr1 f.rxData) (getAddr2 f.rxData) (getAddr1 f.rxData)
        (getAddr2 f.rxData) (getAddr3 f.rxData) := by
  unfold validateDataHdrOther at h
  rw [if_neg (by omega), if_neg (by omega), if_pos hdown] at h
  unfold ap2staDataFrame mpDataFrame at h
  split at h
  · dsimp only at h
    split at h
    · cases h
    next s' hsta =>
      obtain ⟨hp, hs⟩ := Prod.ext_iff.mp (Prod.ext_iff.mp h).2
      obtain rfl : s' = s := Option.some.inj hs
      exact ⟨hsta, hp.symm⟩
  · cases h

theorem validateDataHdr_success (hdir : f.attrib.toFrDs = 2 ∨ f.attrib.toFrDs = 1 ∧ a.fwState.ap)
    (h : validateDataHdr a f = ((.success, p, some s), a')) :
    let w := f.rxData
    let known := a.fwState.ap || a.fwState.station
    let down := f.attrib.toFrDs = 2
    a' = a ∧ rtwGetStainfo a (if known then getAddr2 w else getAddr3 w) = some s ∧
      p = f.attrib.setAddrs (getAddr1 w) (getAddr2 w) (if down then getAddr1 w else getAddr3 w)
        (if known ∧ down then getAddr3 w else getAddr2 w)
        (if !known then getAddr3 w else if down then getAddr2 w else getAddr1 w) := by
  intro w known down
  unfold validateDataHdr at h
  split at h
  next hap =>
    obtain ⟨hup, rfl, hsta, rfl⟩ := rtwApRxDataValidateHdr_success (by omega) h
    simp [known, down, hap, hup, hsta, w]
  next hap =>
    have hdown : f.attrib.toFrDs = 2 := by simpa [hap] using hdir
    split at h
    next hstation =>
      obtain ⟨rfl, hsta, rfl⟩ := rtwStaRxDataValidateHdr_success hdown h
      simp [known, down, hstation, hdown, hsta, w]
    next hstation =>
      obtain ⟨hother, rfl⟩ := Prod.ext_iff.mp h
      obtain ⟨hsta, rfl⟩ := validateDataHdrOther_success hdown hother
      simp [known, down, hap, hstation, hdown, hsta, w]

theorem validateRecvDataFrame_success (h : validateRecvDataFrame a f = (.success, g, a')) :
    let amsdu := f.attrib.qos && getAMsdu f.rxData (wlanHdrA3Len + a4Shift f.attrib.toFrDs)
    ∃ p s a₁, validateDataHdr a { f with attrib := { f.attrib with amsdu } } =
        ((.success, p, some s), a₁) ∧
      validateDataBody a₁ s { f with attrib := p } = (.success, g, a') := by
  intro amsdu
  rcases hhdr : validateDataHdr a { f with attrib := { f.attrib with amsdu } } with
    ⟨⟨ret, p, o⟩, a₁⟩
  simp only [validateRecvDataFrame, amsdu] at hhdr h
  rw [hhdr] at h
  cases ret with
  | fail => cases h
  | rxHandled => cases h
  | success =>
    cases o with
    | none => cases h
    | some s =>
      dsimp only at h
      split at h
      · cases h
      · exact ⟨p, s, a₁, rfl, h⟩

def frameCipher (a : Adapter) (w : Bytes) (s : StaId) : SecurityType :=
  if getPrivacy w then getEncryAlgo a.securitypriv (a.sta s) (getAddr1 w).isMcast else .noPrivacy

/-- **`validate_recv_frame` reads all attributes from the header**, in MP mode with the addresses as
they stand. -/
theorem validateRecvFrame_headerAttribs (hdir : getToFrDs f.rxData = 2 ∨
      getToFrDs f.rxData = 1 ∧ a.fwState.ap)
    (h : validateRecvFrame env a f = (.success, g, a')) :
    let w := f.rxData
    let known := a.fwState.ap || a.fwState.station
    ∃ s, rtwGetStainfo a (if known then getAddr2 w else getAddr3 w) = some s ∧
      headerAttribs g =
        if known then headerOf w (frameCipher a w s) s
        else { headerOf w (frameCipher a w s) s with src := getAddr2 w, bssid := getAddr3 w } := by
  intro w known
  unfold validateRecvFrame at h
  extract_lets f₁ p₁ f₂ r at h
  split at h
  · cases h
  split at h
  · cases h
  · cases h
  · obtain ⟨hret, hg, -⟩ : r.1 = .success ∧ r.2.1 = g ∧ _ := by simpa [Prod.ext_iff] using h
    have hr : validateRecvDataFrame a f₂ = (.success, g, r.2.2) := by
      rw [← hret, ← hg]
    obtain ⟨p, s, a₁, hhdr, hbody⟩ := validateRecvDataFrame_success hr
    obtain ⟨ha, hsta, rfl⟩ := validateDataHdr_success hdir hhdr
    rw [ha] at hbody
    obtain rfl := validateDataBody_success hbody
    refine ⟨s, hsta, ?_⟩
    have hshift : a4Shift (getToFrDs f.rxData) = 0 := by
      unfold a4Shift
      exact if_neg (by omega)
    cases hqos : subTypeQos f.rxData <;> cases horder : getOrder f.rxData <;>
      cases hk : (a.fwState.ap || a.fwState.station) <;>
      simp [headerAttribs, headerOf, setReorderEncrypt, setEncrypt, parseQc, RxPktAttrib.setAddrs,
        frameCipher, baseHdrlen, f₂, f₁, p₁, w, known, parseFrameCtrl, hshift, hqos, horder, hk]
  · cases h

/-! ## The front end of the helpers -/

variable {w : World} {helper prim : AdapterId} {grp : Group}

theorem submitHelperFrame_pending {grp' : Group} (hgrp : w.grp = some grp)
    (hprim : grp.primary = some prim) (h : (submitHelperFrame w helper f).2.grp = some grp')
    (hg : g ∈ grp'.pendingQueue) (hnew : g ∉ grp.pendingQueue) :
    ∃ id s p cache, submitCheck (grp.count .helperRxCandidates) (w.adapter prim) f =
        (.ok (s, p), cache) ∧ g = primaryFrame id s { f with attrib := p } := by
  unfold submitHelperFrame at h
  simp only [hgrp, hprim] at h
  split at h
  · obtain rfl := Option.some.inj (hgrp.symm.trans h)
    exact absurd hg hnew
  split at h
  next x cache heq =>
    -- a frame that is refused is only counted
    have hqueue : grp'.pendingQueue = grp.pendingQueue := by
      obtain rfl := Option.some.inj h
      cases x <;> rfl
    exact absurd (hqueue ▸ hg) hnew
  next s p cache heq =>
    split at h
    · obtain rfl := Option.some.inj h
      exact absurd hg hnew
    next id a halloc =>
      refine ⟨id, s, p, cache, heq, ?_⟩
      have hmem : g ∈ grp.pendingQueue ++ [primaryFrame id s { f with attrib := p }] := by
        unfold submitEnqueue at h
        extract_lets q w₁ at h
        split at h
        · obtain rfl := Option.some.inj h
          exact List.mem_of_mem_tail hg
        · obtain rfl := Option.some.inj h
          exact hg
      simpa [hnew] using hmem

theorem HandsToDrain.submitCheck (h : HandsToDrain w helper f g) (hgrp : w.grp = some grp)
    (hprim : grp.primary = some prim) :
    getFrameType f.rxData = .data ∧
      ∃ id s p cache, submitCheck (grp.count .helperRxCandidates) (w.adapter prim)
        { f with attrib := preRecvHeader f.rxData f.attrib } = (.ok (s, p), cache) ∧
          g = primaryFrame id s { f with attrib := p } := by
  obtain ⟨grp₀, grp', hgrp₀, hgrp', hg, hnew⟩ := h
  obtain rfl := Option.some.inj (hgrp.symm.trans hgrp₀)
  unfold preRecvEntry at hgrp'
  split at hgrp'
  · obtain rfl := Option.some.inj (hgrp.symm.trans hgrp')
    exact absurd hg hnew
  split at hgrp'
  · obtain rfl := Option.some.inj (hgrp.symm.trans hgrp')
    exact absurd hg hnew
  next hdata =>
    have hsubmit : (submitHelperFrame w helper
        { f with attrib := preRecvHeader f.rxData f.attrib }).2.grp = some grp' := by
      rcases hr : submitHelperFrame w helper
        { f with attrib := preRecvHeader f.rxData f.attrib } with
        ⟨ret, w'⟩
      simp only [hr] at hgrp'
      cases ret <;> exact hgrp'
    exact ⟨by simpa using hdata, submitHelperFrame_pending hgrp hprim hsubmit hg hnew⟩

theorem submitDedup_ok {q : RxPktAttrib} {cache : NonqosSeqCache}
    (h : submitDedup grp a s f = (.ok (s', q), cache)) : s' = s ∧ q = f.attrib := by
  unfold submitDedup at h
  extract_lets p₁ r at h
  have hok : ∀ cache', ((.ok (s, p₁), cache') : Checked) = (.ok (s', q), cache) →
      s' = s ∧ q = f.attrib := by
    intro cache' h
    obtain ⟨rfl, rfl⟩ := Prod.ext_iff.mp (Except.ok.inj (Prod.ext_iff.mp h).1)
    exact ⟨rfl, rfl⟩
  split_ifs at h <;> first | exact hok _ h | cases h

theorem submitCheck_ok {cache : NonqosSeqCache} (h : submitCheck grp a f = (.ok (s, p), cache)) :
    submitAddrsOk grp a f.attrib ∧ rtwGetStainfo a f.attrib.ta = some s ∧
      p = submitFixEncrypt a s f.attrib ∧ submitCryptoOk p := by
  unfold submitCheck at h
  extract_lets p₁ at h
  split at h
  · cases h
  next haddrs =>
    split at h
    · cases h
    split at h
    · cases h
    next s' hsta =>
      extract_lets p₂ at h
      split at h
      · cases h
      next hcrypto =>
        obtain ⟨rfl, rfl⟩ := submitDedup_ok h
        exact ⟨by simpa using haddrs, hsta, rfl, by simpa using hcrypto⟩

theorem isQosDataType_of_data {w : Bytes} (h : getFrameType w = .data) :
    isQosDataType w = subTypeQos w := by
  have hbit : (frameCtrl w).testBit 3 = true := by
    unfold getFrameType at h
    split at h <;> simp_all
  simp [isQosDataType, subTypeQos, hbit]

theorem ofDesc_eq_noPrivacy {i : Fin 8} : SecurityType.ofDesc i = .noPrivacy ↔ i = 0 := by
  revert i
  decide

theorem preRecvHeader_toFrDs (w : Bytes) (p : RxPktAttrib) :
    (preRecvHeader w p).toFrDs = getToFrDs w := by
  unfold preRecvHeader
  dsimp only
  split_ifs <;> rfl

theorem preRecvHeader_of_data {w : Bytes} (hdata : getFrameType w = .data)
    (hdir : getToFrDs w = 2 ∨ getToFrDs w = 1) (p : RxPktAttrib) :
    let down := getToFrDs w = 2
    preRecvHeader w p =
      { p.setAddrs (getAddr1 w) (getAddr2 w) (if down then getAddr1 w else getAddr3 w)
          (if down then getAddr3 w else getAddr2 w) (if down then getAddr2 w else getAddr1 w) with
        toFrDs := getToFrDs w
        seqNum := getSequence w
        fragNum := getFragNum w
        privacy := getPrivacy w
        qos := subTypeQos w
        priority := if subTypeQos w then getPriority w wlanHdrA3Len else 0 } := by
  intro down
  have hshift : a4Shift (getToFrDs w) = 0 := if_neg (by omega)
  simp only [preRecvHeader, hshift, isQosDataType_of_data hdata, down, RxPktAttrib.setAddrs]
  rcases hdir with hdown | hup
  · cases hqos : subTypeQos w <;> simp [hdown]
  · cases hqos : subTypeQos w <;> simp [hup]

/-- **The hook of a helper sets the header length with the cipher** and without the HT control
field, and it leaves the A-MSDU and fragment bits to the descriptor. -/
theorem HandsToDrain.headerAttribs {desc : RxDesc} (h : HandsToDrain w helper f g)
    (hgrp : w.grp = some grp) (hprim : grp.primary = some prim)
    (hdesc : f.attrib = rxdesc2attribute desc) :
    let a := w.adapter prim
    (getToFrDs f.rxData = 2 ∨ getToFrDs f.rxData = 1 ∧ a.fwState.ap) ∧
      ∃ s, rtwGetStainfo a (getAddr2 f.rxData) = some s ∧
        if getPrivacy f.rxData ∧ desc.security = 0 then
          headerAttribs g = { headerOf f.rxData (frameCipher a f.rxData s) s with
            hdrlen := baseHdrlen f.rxData, amsdu := desc.amsdu, mfrag := desc.mf }
        else (headerAttribs g).hdrlen = 0 := by
  intro a
  obtain ⟨hdata, id, s, p, cache, hcheck, rfl⟩ := h.submitCheck hgrp hprim
  obtain ⟨haddrs, hsta, rfl, -⟩ := submitCheck_ok hcheck
  have hdir : getToFrDs f.rxData = 2 ∨ getToFrDs f.rxData = 1 ∧ a.fwState.ap := by
    simp only [submitAddrsOk, preRecvHeader_toFrDs] at haddrs
    split at haddrs
    next hdown => exact Or.inl hdown
    next hdown =>
      simp only [Bool.and_eq_true, decide_eq_true_eq] at haddrs
      exact Or.inr haddrs.1
  have hattrib := preRecvHeader_of_data hdata (hdir.imp_right And.left) f.attrib
  dsimp only at hattrib hsta
  rw [hattrib, hdesc] at hsta ⊢
  refine ⟨hdir, s, hsta, ?_⟩
  have hshift : a4Shift (getToFrDs f.rxData) = 0 := if_neg (by omega)
  split
  next hfix =>
    obtain ⟨hprivacy, hsecurity⟩ := hfix
    cases hqos : subTypeQos f.rxData <;>
      simp [primaryFrame, submitFixEncrypt, Coop.headerAttribs, headerOf, frameCipher, baseHdrlen,
        rxdesc2attribute, RxPktAttrib.setAddrs, hprivacy, hsecurity, hshift, hqos, a,
        SecurityType.ofDesc]
  next hfix =>
    have hnot : ¬(getPrivacy f.rxData = true ∧ SecurityType.ofDesc desc.security = .noPrivacy) := by
      rwa [ofDesc_eq_noPrivacy]
    simp [primaryFrame, submitFixEncrypt, Coop.headerAttribs, rxdesc2attribute,
      RxPktAttrib.setAddrs, hnot]

structure SameHeader (w w' : Bytes) : Prop where
  toFrDs : getToFrDs w' = getToFrDs w
  mfrag : getMFrag w' = getMFrag w
  privacy : getPrivacy w' = getPrivacy w
  order : getOrder w' = getOrder w
  qos : subTypeQos w' = subTypeQos w
  addr1 : getAddr1 w' = getAddr1 w
  addr2 : getAddr2 w' = getAddr2 w
  addr3 : getAddr3 w' = getAddr3 w
  sequence : getSequence w' = getSequence w
  fragNum : getFragNum w' = getFragNum w
  priority : subTypeQos w → getPriority w' wlanHdrA3Len = getPriority w wlanHdrA3Len
  amsdu : subTypeQos w → getAMsdu w' wlanHdrA3Len = getAMsdu w wlanHdrA3Len

theorem sameHeader_append {w : Bytes} (hlen : baseHdrlen w ≤ w.length) (q : Bytes) :
    SameHeader w (w ++ q) := by
  have h24 : 24 ≤ w.length := by
    refine le_trans ?_ hlen
    unfold baseHdrlen wlanHdrA3QosLen wlanHdrA3Len
    split <;> omega
  have hfc : frameCtrl (w ++ q) = frameCtrl w := Bytes.le16_append (by omega) q
  have hseq : Bytes.le16 (w ++ q) 22 = w.le16 22 := Bytes.le16_append (by omega) q
  have hqc : subTypeQos w = true → Bytes.le16 (w ++ q) wlanHdrA3Len = w.le16 wlanHdrA3Len := by
    intro hqos
    refine Bytes.le16_append (lt_of_lt_of_le ?_ hlen) q
    simp [baseHdrlen, hqos, wlanHdrA3Len, wlanHdrA3QosLen]
  constructor
  · rw [getToFrDs, getFrDs, getToDs, hfc, getToFrDs, getFrDs, getToDs]
  · rw [getMFrag, hfc, getMFrag]
  · rw [getPrivacy, hfc, getPrivacy]
  · rw [getOrder, hfc, getOrder]
  · rw [subTypeQos, hfc, subTypeQos]
  · exact Bytes.mac_append (by omega) q
  · exact Bytes.mac_append (by omega) q
  · exact Bytes.mac_append (by omega) q
  · rw [getSequence, hseq, getSequence]
  · rw [getFragNum, hseq, getFragNum]
  · intro hqos
    rw [getPriority, hqc hqos, getPriority]
  · intro hqos
    rw [getAMsdu, hqc hqos, getAMsdu]

theorem SameHeader.baseHdrlen {w w' : Bytes} (h : SameHeader w w') :
    baseHdrlen w' = baseHdrlen w := by
  rw [Coop.baseHdrlen, h.qos, Coop.baseHdrlen]

theorem SameHeader.frameCipher {w w' : Bytes} (h : SameHeader w w') (a : Adapter) (s : StaId) :
    frameCipher a w' s = frameCipher a w s := by
  rw [Coop.frameCipher, h.privacy, h.addr1, Coop.frameCipher]

theorem SameHeader.headerOf {w w' : Bytes} (h : SameHeader w w') (enc : SecurityType) (s : StaId) :
    headerOf w' enc s = headerOf w enc s := by
  cases hqos : subTypeQos w with
  | false =>
    simp only [Coop.headerOf, h.baseHdrlen, h.toFrDs, h.mfrag, h.order, h.qos, h.addr1, h.addr2,
      h.addr3, h.sequence, h.fragNum, hqos]
    rfl
  | true =>
    simp only [Coop.headerOf, h.baseHdrlen, h.toFrDs, h.mfrag, h.order, h.qos, h.addr1, h.addr2,
      h.addr3, h.sequence, h.fragNum, h.priority hqos, h.amsdu hqos, hqos]

/-- **When the front ends agree.** A data frame that both the hook of a helper, with the FCS behind
it, and `validate_recv_frame` of the primary accept gets the same attributes exactly if it is
protected and has no HT control field, the descriptor of the helper names no cipher and has the
A-MSDU and fragment bits of the header, and the primary is an access point or a station (or its
addresses 2 and 3 are the same). -/
theorem headerAttribs_eq_iff {mpdu fcs : Bytes} {desc : RxDesc} {f' g' : RecvFrame}
    (hgrp : w.grp = some grp) (hprim : grp.primary = some prim)
    (hlen : baseHdrlen mpdu ≤ mpdu.length) (hf : f.rxData = mpdu ++ fcs)
    (hdesc : f.attrib = rxdesc2attribute desc) (hf' : f'.rxData = mpdu)
    (hhelper : HandsToDrain w helper f g)
    (hprimary : validateRecvFrame env (w.adapter prim) f' = (.success, g', a')) :
    headerAttribs g = headerAttribs g' ↔ parsesAlike (w.adapter prim) desc mpdu := by
  subst hf'
  have hsame := sameHeader_append hlen fcs
  obtain ⟨hdir, s, hsta, hattribs⟩ := hhelper.headerAttribs hgrp hprim hdesc
  rw [hf, hsame.toFrDs] at hdir
  rw [hf, hsame.addr2] at hsta
  simp only [hf, hsame.privacy, hsame.frameCipher, hsame.headerOf, hsame.baseHdrlen] at hattribs
  obtain ⟨s', hsta', hattribs'⟩ := validateRecvFrame_headerAttribs hdir hprimary
  rw [hattribs']
  by_cases hfix : getPrivacy f'.rxData = true ∧ desc.security = 0
  · rw [if_pos hfix] at hattribs
    rw [hattribs]
    obtain ⟨hprivacy, hsecurity⟩ := hfix
    cases hk : ((w.adapter prim).fwState.ap || (w.adapter prim).fwState.station) with
    | true =>
      rw [hk] at hsta'
      obtain rfl : s = s' := Option.some.inj (hsta.symm.trans hsta')
      cases horder : getOrder f'.rxData <;>
        simp [headerOf, parsesAlike, hprivacy, hsecurity, hk, horder]
    | false =>
      have hdown : getToFrDs f'.rxData = 2 := by
        have hap : (w.adapter prim).fwState.ap = false := (Bool.or_eq_false_iff.mp hk).1
        simpa [hap] using hdir
      rw [hk] at hsta'
      by_cases haddr : getAddr2 f'.rxData = getAddr3 f'.rxData
      · rw [← haddr] at hsta'
        obtain rfl : s = s' := Option.some.inj (hsta.symm.trans hsta')
        cases horder : getOrder f'.rxData <;>
          simp [headerOf, parsesAlike, hprivacy, hsecurity, hk, horder, hdown, haddr]
      · have haddr' : getAddr3 f'.rxData ≠ getAddr2 f'.rxData := fun h => haddr h.symm
        simp [headerOf, parsesAlike, hk, hdown, haddr, haddr']
  · -- the hook has left the header length at zero
    rw [if_neg hfix] at hattribs
    have hpos : ∀ enc s, 0 < (headerOf f'.rxData enc s).hdrlen := by
      intro enc s
      simp only [headerOf, baseHdrlen, wlanHdrA3QosLen, wlanHdrA3Len]
      split <;> omega
    have hno : parsesAlike (w.adapter prim) desc f'.rxData = false := by
      simp only [parsesAlike, Bool.and_eq_false_iff, decide_eq_false_iff_not]
      by_contra hall
      exact hfix (by grind)
    rw [hno]
    refine iff_of_false (fun heq => ?_) (by simp)
    have hpos' := hpos (frameCipher (w.adapter prim) f'.rxData s') s'
    rw [heq] at hattribs
    split at hattribs <;> exact hpos'.ne' hattribs

def pmfWorld : World where
  grp := some { state := .active, primary := some 0, helpers := [1], boundBssid := apAddr }
  adapter i := if i = 0 then pmfStation else {}
  radio _ := {}

/-- A protected QoS frame of the access point, with the order bit or without. -/
def qosMpduBytes (order : Bool) : Bytes :=
  [0x88, if order then 0xc2 else 0x42, 0, 0] ++ staAddr.toBytes ++ apAddr.toBytes ++
    apAddr.toBytes ++ [0x70, 0, 0, 0] ++ (if order then [1, 0, 0, 0] else []) ++
      [1, 0, 0, 0x20, 0, 0, 0, 0] ++ List.replicate 16 0

def helperMpdu (order : Bool) : RecvFrame where
  id := 0
  pkt := some 0
  attrib := rxdesc2attribute default
  rxData := qosMpduBytes order ++ [0, 0, 0, 0]

/-- Both front ends accept a frame without HT control field, and agree. -/
theorem headerAttribs_eq_plain :
    ∃ g g' a', HandsToDrain pmfWorld 1 (helperMpdu false) g ∧
      validateRecvFrame plainEnv pmfStation { id := 9, rxData := qosMpduBytes false } =
        (.success, g', a') ∧
      headerAttribs g = headerAttribs g' :=
  have hhelper : HandsToDrain pmfWorld 1 (helperMpdu false) _ :=
    ⟨_, _, rfl, rfl, List.mem_cons_self, by decide⟩
  ⟨_, _, _, hhelper, rfl, (@headerAttribs_eq_iff plainEnv _ (helperMpdu false) _ pmfWorld 1 0 _
    (qosMpduBytes false) [0, 0, 0, 0] {} { id := 9, rxData := qosMpduBytes false } _ rfl rfl
    (by decide) rfl rfl rfl hhelper rfl).mpr (by decide)⟩

/-- The hook of the helper takes the HT control field for the cipher header. -/
theorem not_headerAttribs_eq :
    ¬∀ (env : Env) (w : World) (helper prim : AdapterId) (grp : Group) (mpdu fcs : Bytes)
      (desc : RxDesc) (f f' g g' : RecvFrame) (a' : Adapter), w.grp = some grp →
        grp.primary = some prim → baseHdrlen mpdu ≤ mpdu.length → f.rxData = mpdu ++ fcs →
        f.attrib = rxdesc2attribute desc → f'.rxData = mpdu → HandsToDrain w helper f g →
        validateRecvFrame env (w.adapter prim) f' = (.success, g', a') →
          headerAttribs g = headerAttribs g' := by
  intro h
  have heq := h plainEnv pmfWorld 1 0 _ (qosMpduBytes true) [0, 0, 0, 0] {} (helperMpdu true)
    { id := 9, rxData := qosMpduBytes true } _ _ _ rfl rfl (by decide) rfl rfl rfl
    ⟨_, _, rfl, rfl, List.mem_cons_self, by decide⟩ rfl
  revert heq
  decide

end Rtl88x2eu.Coop
