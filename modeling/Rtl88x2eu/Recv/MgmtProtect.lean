import Rtl88x2eu.Recv.Conservation

/-!
# Management frame protection

What `mgt_dispatcher` gets to see of a station that negotiated management frame protection. A
robust management frame that is not encrypted is dropped, or it stands under the BIP element. An
encrypted one is left to `decryptor`, which was written for data frames: it takes the pairwise
cipher of the station whatever that is, and a group-addressed frame under the group key, which every
station of the network has, where only group privacy action frames may come so.

## Main definitions

* `dispatchedMgnt`, `Authenticated`, `MgmtProtected`, `robustMpdu`, `MgmtOk`

## Main results

* `validateRecvMgntFrame_dispatches`: nothing else reaches `mgt_dispatcher`
* `mgmtProtected_iff`: the condition is exact
* `not_mgmtProtected`: a group-addressed deauthentication under the group key
-/

namespace Rtl88x2eu

/-- The frame that is handed to `mgt_dispatcher`. -/
def dispatchedMgnt (env : Env) (a : Adapter) (f : RecvFrame) : Option RecvFrame :=
  match validateMgmtProtect env a { f with psta := rtwGetStainfo a (getAddr2 f.rxData) } with
  | (false, _, _) => none
  | (true, f, a) => (recvframeChkDefrag env.crypto a f).1

/-- **Nothing else reaches `mgt_dispatcher`**, whatever it does. -/
theorem validateRecvMgntFrame_dispatches (env : Env) (a : Adapter) (f : RecvFrame) :
    ∃ a₁, ∀ d, validateRecvMgntFrame { env with mgtDispatcher := d } a f =
      match dispatchedMgnt env a f with
      | none => a₁
      | some g => d a₁ g := by
  have henv (d : Adapter → RecvFrame → Adapter) (f : RecvFrame) :
      validateMgmtProtect { env with mgtDispatcher := d } a f = validateMgmtProtect env a f := rfl
  unfold validateRecvMgntFrame dispatchedMgnt
  simp only [henv]
  rcases validateMgmtProtect env a { f with psta := rtwGetStainfo a (getAddr2 f.rxData) } with
    ⟨_ | _, f₁, a₁⟩
  · exact ⟨a₁, fun d => rfl⟩
  · dsimp only
    rcases recvframeChkDefrag env.crypto a₁ f₁ with ⟨_ | g, a₂⟩
    · exact ⟨a₂, fun d => rfl⟩
    · exact ⟨_, fun d => rfl⟩

def Opens (crypto : Crypto) (a : Adapter) (enc : SecurityType) (key : Bytes) (w : Bytes) : Prop :=
  enc.isAead ∧
    (aeadDecrypt crypto enc (a.amsduMode = .spp) (key.take (aeadKeyLen enc)) w
      (w.drop wlanHdrA3Len)).isSome

structure BipVerified (env : Env) (a : Adapter) (f : RecvFrame) : Prop where
  called : mgmtProtect a f = .bipVerify
  verified : (rtwBipVerify env.crypto (env.zmalloc a f) a.securitypriv f.attrib.pktLen f.rxData).1 =
    .success
  advancing : a.securitypriv.dot11wBIPrxpn <
    (rtwBipVerify env.crypto (env.zmalloc a f) a.securitypriv f.attrib.pktLen f.rxData).2

/-- **The frame of station `s` was authenticated** in the way its address requires; `w` is what was
made of it. -/
def Authenticated (env : Env) (a : Adapter) (s : StaId) (f : RecvFrame) (w : Bytes) : Prop :=
  let enc := (a.sta s).dot118021XPrivacy
  let sec := a.securitypriv
  if (getAddr1 f.rxData).isMcast then
    if groupPrivacyAction w then
      f.attrib.privacy ∧ sec.binstallGrpkey ∧ ∃ k : Fin 4, k = sec.dot118021XGrpKeyid ∧
        Opens env.crypto a enc (sec.dot118021XGrpKey k) f.rxData
    else BipVerified env a { f with psta := some s }
  else f.attrib.privacy ∧ Opens env.crypto a enc (a.sta s).dot118021xUncstKey f.rxData

def earlierFragments (a : Adapter) (s : StaId) (f : RecvFrame) : List RecvFrame :=
  if f.isWhole then []
  else if f.attrib.privacy then (a.sta s).defragQ
  else
    match defragSta a f with
    | none => []
    | some s' => (a.sta s').defragQ

/-- **Only authenticated frames are handed on** among the robust management frames; `authentic` says
which waiting fragments were authenticated when they came. -/
def MgmtProtected (env : Env) (a : Adapter) (s : StaId) (authentic : RecvFrame → Prop)
    (f : RecvFrame) : Prop :=
  ∀ g, dispatchedMgnt env a f = some g → robustMgmt g.rxData →
    Authenticated env a s f g.rxData ∧ ∀ h ∈ earlierFragments a s f, authentic h

/-- A frame as `validate_mgmt_protect` sees it. -/
def RecvFrame.sentBy (f : RecvFrame) (s : StaId) : RecvFrame := { f with psta := some s }

/-- The robust management frame that a frame is, or that it completes. -/
def robustMpdu (crypto : Crypto) (a : Adapter) (f : RecvFrame) : Option RecvFrame :=
  (mpduOf a f).bind fun g =>
    if micPasses crypto a g && robustMgmt (behindMic crypto a g).rxData then
      some (behindMic crypto a g)
    else none

/-- **The condition.** An encrypted frame that opens, and is or completes a robust management frame,
is under CCMP or GCMP; if it is group-addressed it is a group privacy action frame. A last fragment
in the clear that is left alone or verified completes no robust management frame, unless
`rtw_bip_verify` was called for it. Either way, the fragments that waited were authenticated. -/
def MgmtOk (env : Env) (a : Adapter) (s : StaId) (authentic : RecvFrame → Prop) (f : RecvFrame) :
    Prop :=
  let h := mgmtDecryptFrame (a.sta s) (f.sentBy s)
  if f.attrib.privacy then
    env.zmalloc a h → opens env.crypto a h →
      ∀ g, robustMpdu env.crypto a (mgmtDecrypted (opened env.crypto a h)) = some g →
        (a.sta s).dot118021XPrivacy.isAead ∧
          ((getAddr1 f.rxData).isMcast → groupPrivacyAction g.rxData) ∧
            ∀ x ∈ earlierFragments a s f, authentic x
  else
    f.isWhole = false → protectPasses env a (f.sentBy s) →
      ∀ g, robustMpdu env.crypto a (f.sentBy s) = some g →
        (getAddr1 f.rxData).isMcast ∧ groupPrivacyAction g.rxData = false ∧
          mgmtProtect a (f.sentBy s) = .bipVerify ∧ ∀ x ∈ earlierFragments a s f, authentic x

/-! ## What is handed on -/

section

variable {env : Env} {a a' : Adapter} {s : StaId} {f g : RecvFrame}

theorem mpduOf_congr (h : a.SameGates a') (hsta : a'.sta = a.sta) (f : RecvFrame) :
    mpduOf a' f = mpduOf a f := by
  have hdefragSta : defragSta a' f = defragSta a f := by
    unfold defragSta
    rw [h.stainfo, h.stainfo]
  unfold mpduOf fragmentsOf
  rw [hdefragSta, hsta]

/-- **A robust management frame that is handed on has passed the protection**, and is or completes
the frame that is handed on. -/
theorem dispatchedMgnt_robust_iff (hsta : rtwGetStainfo a (getAddr2 f.rxData) = some s) :
    dispatchedMgnt env a f = some g ∧ robustMgmt g.rxData ↔
      protectPasses env a (f.sentBy s) ∧
        robustMpdu env.crypto a (mgmtOpened env.crypto a (f.sentBy s)) = some g := by
  obtain ⟨hret, hpassed⟩ := validateMgmtProtect_verdict env a (f.sentBy s)
  have hsame := validateMgmtProtect_sta env a (f.sentBy s)
  unfold dispatchedMgnt
  rw [hsta]
  change (match validateMgmtProtect env a (f.sentBy s) with
    | (false, _, _) => none
    | (true, f, a) => (recvframeChkDefrag env.crypto a f).1) = some g ∧ _ ↔ _
  rcases hval : validateMgmtProtect env a (f.sentBy s) with ⟨ok, h, a₁⟩
  rw [hval] at hret hpassed hsame
  obtain rfl : ok = protectPasses env a (f.sentBy s) := hret
  cases hok : protectPasses env a (f.sentBy s) with
  | false => simp
  | true =>
    obtain ⟨hframe, hgates⟩ := hpassed hok
    obtain rfl : h = mgmtOpened env.crypto a (f.sentBy s) := hframe
    simp only [true_and]
    rw [recvframeChkDefrag_fst, mpduOf_congr hgates (hsame hok)]
    unfold robustMpdu
    cases mpduOf a (mgmtOpened env.crypto a (f.sentBy s)) with
    | none => simp
    | some m =>
      obtain ⟨hmic, hbehind⟩ := micPasses_congr env.crypto hgates m
      simp only [Option.bind_some]
      rw [hmic, hbehind]
      cases micPasses env.crypto a m with
      | false => simp
      | true =>
        by_cases hrobust : robustMgmt (behindMic env.crypto a m).rxData
        · simp only [hrobust, Bool.and_self, if_true]
          exact ⟨fun h => h.1, fun h => ⟨h, Option.some.inj h ▸ hrobust⟩⟩
        · simp only [hrobust, Bool.and_false, if_true, Bool.false_eq_true, if_false]
          exact iff_of_false (fun h => hrobust (Option.some.inj h.1 ▸ h.2)) nofun

/-! ## Frames that are not encrypted -/

theorem mgmtProtect_of_unprotected (hpsta : f.psta = some s) (hmfp : (a.sta s).mfp)
    (hkey : (a.sta s).bpairwiseKeyInstalled) (hprivacy : f.attrib.privacy = false)
    (hrobust : robustMgmt f.rxData) :
    mgmtProtect a f =
      if (getAddr1 f.rxData).isMcast then
        if groupPrivacyAction f.rxData then .drop else .bipVerify
      else .drop := by
  unfold mgmtProtect
  simp only [hpsta, hmfp, hprivacy, hkey]
  unfold robustMgmt mgmtCategory at hrobust
  unfold groupPrivacyAction mgmtCategory
  by_cases haction : getFrameSubType f.rxData = wifiAction
  · have hne : wifiAction ≠ wifiDeauth ∧ wifiAction ≠ wifiDisassoc := by decide
    simp only [haction, hne, decide_false, decide_true, Bool.false_or, Bool.true_and] at hrobust
    simp [haction, hne, hrobust]
  · simp only [haction, decide_false, Bool.false_and, Bool.or_false, Bool.or_eq_true,
      decide_eq_true_eq] at hrobust
    simp [haction, hrobust]

theorem mgmtProtect_of_protected (hpsta : f.psta = some s) (hmfp : (a.sta s).mfp)
    (hprivacy : f.attrib.privacy) : mgmtProtect a f = .decrypt := by
  simp [mgmtProtect, hpsta, hmfp, hprivacy]

/-- The packet number of a verified frame advances; another frame leaves it. -/
theorem rtwBipVerify_cases (crypto : Crypto) (mem : Bool) (sec : SecurityPriv) (pktLen : ℕ)
    (w : Bytes) :
    (rtwBipVerify crypto mem sec pktLen w).1 = .success ∧
        sec.dot11wBIPrxpn < (rtwBipVerify crypto mem sec pktLen w).2 ∨
      (rtwBipVerify crypto mem sec pktLen w).1 ≠ .success ∧
        (rtwBipVerify crypto mem sec pktLen w).2 = sec.dot11wBIPrxpn := by
  unfold rtwBipVerify
  extract_lets ipn micLen mme pktIpn
  by_cases hshort : w.length < wlanHdrA3Len + micLen
  · rw [if_pos hshort]
    exact .inr ⟨nofun, rfl⟩
  by_cases hmme : mme.u8 0 ≠ mmeIe
  · rw [if_neg hshort, if_pos hmme]
    exact .inr ⟨nofun, rfl⟩
  by_cases hkeyid : mme.le16 2 ≠ sec.dot11wBIPKeyid
  · rw [if_neg hshort, if_neg hmme, if_pos hkeyid]
    exact .inr ⟨nofun, rfl⟩
  by_cases hold : pktIpn ≤ ipn
  · rw [if_neg hshort, if_neg hmme, if_neg hkeyid, if_pos hold]
    exact .inr ⟨nofun, rfl⟩
  rw [if_neg hshort, if_neg hmme, if_neg hkeyid, if_neg hold]
  cases mem with
  | false => exact .inr ⟨nofun, rfl⟩
  | true =>
    rw [if_neg (by decide)]
    split
    · exact .inr ⟨nofun, rfl⟩
    · split
      · exact .inl ⟨rfl, Nat.lt_of_not_le hold⟩
      · exact .inr ⟨nofun, rfl⟩

theorem rtwBipVerify_advancing (crypto : Crypto) (mem : Bool) (sec : SecurityPriv) (pktLen : ℕ)
    (w : Bytes) (h : (rtwBipVerify crypto mem sec pktLen w).1 = .success) :
    sec.dot11wBIPrxpn < (rtwBipVerify crypto mem sec pktLen w).2 := by
  rcases rtwBipVerify_cases crypto mem sec pktLen w with ⟨-, hlt⟩ | ⟨hne, -⟩
  · exact hlt
  · exact absurd h hne

/-- A frame in the clear that passes was authenticated if it stood under the BIP element. -/
theorem authenticated_plain_iff (hbip : a.securitypriv.binstallBIPkey)
    (hprivacy : f.attrib.privacy = false) (hpasses : protectPasses env a (f.sentBy s)) (w : Bytes) :
    Authenticated env a s f w ↔ (getAddr1 f.rxData).isMcast ∧ groupPrivacyAction w = false ∧
      mgmtProtect a (f.sentBy s) = .bipVerify := by
  unfold Authenticated
  cases hmcast : (getAddr1 f.rxData).isMcast with
  | false => simp [hprivacy]
  | true =>
    cases hgroup : groupPrivacyAction w with
    | true => simp [hprivacy]
    | false =>
      simp only [if_true, Bool.false_eq_true, if_false, true_and]
      refine ⟨fun h => h.called, fun hcalled => ?_⟩
      simp only [protectPasses, hbip, hcalled, Bool.not_true, Bool.false_or,
        decide_eq_true_eq] at hpasses
      exact ⟨hcalled, hpasses, rtwBipVerify_advancing _ _ _ _ _ hpasses⟩

theorem mgmtOpened_of_plain (crypto : Crypto) (hmfp : (a.sta s).mfp)
    (hprivacy : f.attrib.privacy = false) : mgmtOpened crypto a (f.sentBy s) = f.sentBy s := by
  have hnever : mgmtProtect a (f.sentBy s) ≠ .decrypt := by
    have hclear : (f.sentBy s).attrib.privacy = false := hprivacy
    have hpsta : (f.sentBy s).psta = some s := rfl
    unfold mgmtProtect
    simp only [hpsta, hmfp, hclear, Bool.not_true, Bool.false_eq_true, if_false]
    split_ifs <;> simp
  exact if_neg fun h => hnever h.2

/-- **A whole frame in the clear that passes was authenticated.** -/
theorem authenticated_of_plain (hbip : a.securitypriv.binstallBIPkey) (hmfp : (a.sta s).mfp)
    (hkey : (a.sta s).bpairwiseKeyInstalled) (hprivacy : f.attrib.privacy = false)
    (hwhole : f.isWhole) (hpasses : protectPasses env a (f.sentBy s))
    (hg : robustMpdu env.crypto a (f.sentBy s) = some g) : Authenticated env a s f g.rxData := by
  have hself : mpduOf a (f.sentBy s) = some (f.sentBy s) := if_pos hwhole
  have hmic : micPasses env.crypto a (f.sentBy s) ∧
      behindMic env.crypto a (f.sentBy s) = f.sentBy s := by
    simp [micPasses, behindMic, RecvFrame.sentBy, hprivacy]
  simp only [robustMpdu, hself, Option.bind_some, hmic.1, hmic.2, Bool.true_and] at hg
  split_ifs at hg with hrobust
  obtain rfl := Option.some.inj hg
  have hleaf := mgmtProtect_of_unprotected (f := f.sentBy s) rfl hmfp hkey hprivacy hrobust
  rw [authenticated_plain_iff hbip hprivacy hpasses]
  have hdrop : mgmtProtect a (f.sentBy s) ≠ .drop := by
    intro hdrop
    simp [protectPasses, hbip, hdrop] at hpasses
  split_ifs at hleaf with hmcast hgroup
  · exact absurd hleaf hdrop
  · exact ⟨hmcast, by simpa [RecvFrame.sentBy] using hgroup, hleaf⟩
  · exact absurd hleaf hdrop

/-! ## Encrypted frames -/

theorem swDecrypt_aead {crypto : Crypto} (haead : f.attrib.encrypt.isAead)
    (hok : (swDecrypt crypto a f).1) : ∃ key, aeadKey a f.attrib = some key ∧
      (aeadDecrypt crypto f.attrib.encrypt (a.amsduMode = .spp)
        (key.take (aeadKeyLen f.attrib.encrypt)) f.rxData
        (f.rxData.drop f.attrib.hdrlen)).isSome := by
  have heq : swDecrypt crypto a f = rtwAeadDecrypt crypto f.attrib.encrypt a f := by
    unfold swDecrypt rtwAesDecrypt rtwGcmpDecrypt
    cases henc : f.attrib.encrypt <;> simp_all [SecurityType.isAead]
  rw [heq] at hok
  unfold rtwAeadDecrypt at hok
  cases hkey : aeadKey a f.attrib with
  | none => simp [hkey] at hok
  | some key =>
    refine ⟨key, rfl, ?_⟩
    simp only [hkey, Option.bind_some] at hok
    split at hok
    · cases hok
    · rename_i plain hplain
      rw [hplain]
      rfl

theorem aeadKey_of_sta {p : RxPktAttrib} {key : Bytes} (hsta : rtwGetStainfo a p.ta = some s)
    (hkey : aeadKey a p = some key) :
    if p.ra.isMcast then
      a.securitypriv.binstallGrpkey ∧ p.keyIndex = a.securitypriv.dot118021XGrpKeyid ∧
        a.securitypriv.dot118021XGrpKey p.keyIndex = key
    else (a.sta s).dot118021xUncstKey = key := by
  simp only [aeadKey, hsta] at hkey
  split_ifs at hkey with hmcast hinstalled hkeyid
  · rw [if_pos hmcast]
    rw [Bool.not_eq_true', Bool.not_eq_false] at hinstalled
    exact ⟨hinstalled, (not_ne_iff.mp hkeyid).symm, Option.some.inj hkey⟩
  · rw [if_neg hmcast]
    exact Option.some.inj hkey

theorem opens_mgmtDecryptFrame {crypto : Crypto}
    (hsta : rtwGetStainfo a (getAddr2 f.rxData) = some s)
    (haead : (a.sta s).dot118021XPrivacy.isAead)
    (hopens : opens crypto a (mgmtDecryptFrame (a.sta s) (f.sentBy s))) :
    if (getAddr1 f.rxData).isMcast then
      a.securitypriv.binstallGrpkey ∧ ∃ k : Fin 4, k = a.securitypriv.dot118021XGrpKeyid ∧
        Opens crypto a (a.sta s).dot118021XPrivacy (a.securitypriv.dot118021XGrpKey k) f.rxData
    else Opens crypto a (a.sta s).dot118021XPrivacy (a.sta s).dot118021xUncstKey f.rxData := by
  have hne : (a.sta s).dot118021XPrivacy ≠ .noPrivacy := by
    intro heq
    rw [heq] at haead
    cases haead
  have hsealed : (mgmtDecryptFrame (a.sta s) (f.sentBy s)).isSealed := by
    simp [RecvFrame.isSealed, mgmtDecryptFrame, hne]
  have hindexed : ∃ k, (mgmtDecryptFrame (a.sta s) (f.sentBy s)).indexed =
      { mgmtDecryptFrame (a.sta s) (f.sentBy s) with
        attrib := { (mgmtDecryptFrame (a.sta s) (f.sentBy s)).attrib with keyIndex := k } } :=
    ⟨_, if_pos hne⟩
  obtain ⟨k, hk⟩ := hindexed
  unfold opens at hopens
  rw [hsealed, hk] at hopens
  obtain ⟨key, hkey, hkeyOpens⟩ := swDecrypt_aead haead hopens
  have hkey := aeadKey_of_sta (by exact hsta) hkey
  by_cases hmcast : (getAddr1 f.rxData).isMcast
  · rw [if_pos hmcast]
    rw [if_pos (by exact hmcast)] at hkey
    obtain ⟨hinstalled, hkeyid, rfl⟩ := hkey
    exact ⟨hinstalled, k, hkeyid, haead, hkeyOpens⟩
  · rw [if_neg hmcast]
    rw [if_neg (by exact hmcast)] at hkey
    subst hkey
    exact ⟨haead, hkeyOpens⟩

/-- An encrypted frame that opens was authenticated if the cipher is one that verifies, and the
group key was not used for a frame that stands under the BIP element. -/
theorem authenticated_sealed_iff (hsta : rtwGetStainfo a (getAddr2 f.rxData) = some s)
    (hmfp : (a.sta s).mfp) (hprivacy : f.attrib.privacy)
    (hopens : opens env.crypto a (mgmtDecryptFrame (a.sta s) (f.sentBy s))) (w : Bytes) :
    Authenticated env a s f w ↔ (a.sta s).dot118021XPrivacy.isAead ∧
      ((getAddr1 f.rxData).isMcast → groupPrivacyAction w) := by
  unfold Authenticated
  constructor
  · intro hauth
    dsimp only at hauth
    split_ifs at hauth with hmcast hgroup
    · obtain ⟨-, -, -, -, haead, -⟩ := hauth
      exact ⟨haead, fun _ => hgroup⟩
    · -- an encrypted frame is not given to `rtw_bip_verify`
      have hcase := mgmtProtect_of_protected (f := f.sentBy s) rfl hmfp hprivacy
      cases hauth.called.symm.trans hcase
    · exact ⟨hauth.2.1, fun h => absurd h hmcast⟩
  · rintro ⟨haead, hgroup⟩
    have hkey := opens_mgmtDecryptFrame hsta haead hopens
    by_cases hmcast : (getAddr1 f.rxData).isMcast
    · rw [if_pos hmcast] at hkey ⊢
      rw [if_pos (hgroup hmcast)]
      exact ⟨hprivacy, hkey⟩
    · rw [if_neg hmcast] at hkey ⊢
      exact ⟨hprivacy, hkey⟩

end

/-- **The condition is exact**, for whole frames and for fragments. -/
theorem mgmtProtected_iff {env : Env} {a : Adapter} {s : StaId} {f : RecvFrame}
    {authentic : RecvFrame → Prop} (hbip : a.securitypriv.binstallBIPkey)
    (hsta : rtwGetStainfo a (getAddr2 f.rxData) = some s) (hmfp : (a.sta s).mfp)
    (hkey : (a.sta s).bpairwiseKeyInstalled) :
    MgmtProtected env a s authentic f ↔ MgmtOk env a s authentic f := by
  have hrobust := fun g => @dispatchedMgnt_robust_iff env a s f g hsta
  have hprotected : MgmtProtected env a s authentic f ↔ ∀ g,
      protectPasses env a (f.sentBy s) →
        robustMpdu env.crypto a (mgmtOpened env.crypto a (f.sentBy s)) = some g →
        Authenticated env a s f g.rxData ∧ ∀ x ∈ earlierFragments a s f, authentic x :=
    ⟨fun h g hpasses hg => h g ((hrobust g).mpr ⟨hpasses, hg⟩).1 ((hrobust g).mpr ⟨hpasses, hg⟩).2,
      fun h g hg hr => h g ((hrobust g).mp ⟨hg, hr⟩).1 ((hrobust g).mp ⟨hg, hr⟩).2⟩
  rw [hprotected]
  unfold MgmtOk
  cases hprivacy : f.attrib.privacy with
  | true =>
    have hcase := mgmtProtect_of_protected (f := f.sentBy s) rfl hmfp hprivacy
    have hpasses : protectPasses env a (f.sentBy s) ↔
        env.zmalloc a (mgmtDecryptFrame (a.sta s) (f.sentBy s)) ∧
          opens env.crypto a (mgmtDecryptFrame (a.sta s) (f.sentBy s)) := by
      have hpsta : (f.sentBy s).psta = some s := rfl
      simp [protectPasses, hbip, hcase, hpsta]
    have hopened : mgmtOpened env.crypto a (f.sentBy s) =
        mgmtDecrypted (opened env.crypto a (mgmtDecryptFrame (a.sta s) (f.sentBy s))) :=
      if_pos ⟨hbip, hcase⟩
    simp only [if_true]
    rw [hopened]
    constructor
    · intro h hmem hopens g hg
      obtain ⟨hauth, hearlier⟩ := h g (hpasses.mpr ⟨hmem, hopens⟩) hg
      rw [authenticated_sealed_iff hsta hmfp hprivacy hopens] at hauth
      exact ⟨hauth.1, hauth.2, hearlier⟩
    · intro h g hok hg
      obtain ⟨hmem, hopens⟩ := hpasses.mp hok
      obtain ⟨haead, hgroup, hearlier⟩ := h hmem hopens g hg
      exact ⟨(authenticated_sealed_iff hsta hmfp hprivacy hopens _).mpr ⟨haead, hgroup⟩, hearlier⟩
  | false =>
    simp only [Bool.false_eq_true, if_false]
    rw [mgmtOpened_of_plain env.crypto hmfp hprivacy]
    constructor
    · intro h _ hpasses g hg
      obtain ⟨hauth, hearlier⟩ := h g hpasses hg
      rw [authenticated_plain_iff hbip hprivacy hpasses] at hauth
      exact ⟨hauth.1, hauth.2.1, hauth.2.2, hearlier⟩
    · intro h g hpasses hg
      cases hwhole : f.isWhole with
      | true =>
        refine ⟨authenticated_of_plain hbip hmfp hkey hprivacy hwhole hpasses hg, ?_⟩
        unfold earlierFragments
        rw [if_pos hwhole]
        exact fun x hx => absurd hx List.not_mem_nil
      | false =>
        obtain ⟨hmcast, hgroup, hcalled, hearlier⟩ := h hwhole hpasses g hg
        exact ⟨(authenticated_plain_iff hbip hprivacy hpasses _).mpr
          ⟨hmcast, hgroup, hcalled⟩, hearlier⟩

def Crypto.keyTag : Crypto :=
  { Crypto.wrongKey with
    aesCcmAd := fun key _ micLen crypt _ mic => if mic = key.take micLen then some crypt else none }

def keyedStation : Adapter :=
  { pmfStation with
    securitypriv :=
      { pmfStation.securitypriv with
        binstallGrpkey := true
        dot118021XGrpKey := fun _ => List.replicate 16 2 }
    sta := fun _ =>
      { macAddr := apAddr, mfp := true, dot118021XPrivacy := .aes, bpairwiseKeyInstalled := true,
        dot118021xUncstKey := List.replicate 16 1 } }

def sealedDeauth (ra : MacAddr) (tag : UInt8) : RecvFrame where
  id := 0
  pkt := some 0
  attrib := { privacy := true, pktLen := 42 }
  rxData := [0xc0, 0x40, 0, 0] ++ ra.toBytes ++ apAddr.toBytes ++ apAddr.toBytes ++ [0x10, 0] ++
    [1, 0, 0, 0x20, 0, 0, 0, 0] ++ [7, 0] ++ List.replicate 8 tag

/-- Under the pairwise key it is handed on, and it was authenticated. -/
theorem mgmtProtected_sealedDeauth :
    (dispatchedMgnt { crypto := .keyTag } keyedStation (sealedDeauth staAddr 1)).any
        (fun g => robustMgmt g.rxData) ∧
      MgmtProtected { crypto := .keyTag } keyedStation 0 (fun _ => False)
        (sealedDeauth staAddr 1) := by
  refine ⟨by decide +kernel, ?_⟩
  refine (mgmtProtected_iff rfl rfl rfl rfl).mpr ?_
  unfold MgmtOk
  extract_lets h
  have hprivacy : (sealedDeauth staAddr 1).attrib.privacy := rfl
  rw [if_pos hprivacy]
  refine fun _ _ g _ => ⟨rfl, fun hmcast => ?_, fun x hx => ?_⟩
  · exact absurd hmcast (by decide +kernel)
  · exact absurd hx (List.not_mem_nil (a := x))

/-- A group-addressed deauthentication under the group key, which any station of the network can
make up, is handed on as well. -/
theorem not_mgmtProtected :
    ¬ ∀ (env : Env) (a : Adapter) (s : StaId) (authentic : RecvFrame → Prop) (f : RecvFrame),
      a.securitypriv.binstallBIPkey → rtwGetStainfo a (getAddr2 f.rxData) = some s →
      (a.sta s).mfp → (a.sta s).bpairwiseKeyInstalled → MgmtProtected env a s authentic f := by
  intro h
  have hprotected := h { crypto := .keyTag } keyedStation 0 (fun _ => False)
    (sealedDeauth .bcast 2) rfl rfl rfl rfl
  have hdispatched : (dispatchedMgnt { crypto := .keyTag } keyedStation (sealedDeauth .bcast 2)).any
      (fun g => robustMgmt g.rxData && !groupPrivacyAction g.rxData) = true := by decide +kernel
  obtain ⟨g, hg, hbody⟩ := (Option.any_eq_true _ _).mp hdispatched
  rw [Bool.and_eq_true, Bool.not_eq_true'] at hbody
  obtain ⟨hauth, -⟩ := hprotected g hg hbody.1
  unfold Authenticated at hauth
  rw [if_pos (by decide +kernel), if_neg (by rw [hbody.2]; decide)] at hauth
  have hcalled := hauth.called
  revert hcalled
  decide +kernel

end Rtl88x2eu
