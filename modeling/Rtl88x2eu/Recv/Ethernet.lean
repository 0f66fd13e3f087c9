import Rtl88x2eu.Coop.FrontEnds
import Rtl88x2eu.Crypto.RoundTrip

/-!
# Ethernet frames over the air

An Ethernet frame that is sent under a cipher in software and accepted at the other end comes out of
the receive path with its destination, its type and its payload as they were. The source is the one
that the header of an MPDU can name: an access point's frames keep theirs, other stations put their
own address there.

## Main definitions

* `handed`

## Main results

* `ethernet_delivered`: the frame that comes out
-/

namespace Rtl88x2eu

open Xmit (XmitFrame PktAttrib putSnap micPseudo)

/-! ## The LLC header -/

theorem ofBe16_be16 (p : Bytes) (i : ℕ) : Bytes.ofBe16 (p.be16 i) = [p.u8 i, p.u8 (i + 1)] := by
  have hhigh := (p.u8 i).toNat_lt
  have hlow := (p.u8 (i + 1)).toNat_lt
  have hdiv : (256 * (p.u8 i).toNat + (p.u8 (i + 1)).toNat) / 256 = (p.u8 i).toNat := by omega
  simp only [Bytes.ofBe16, Bytes.be16, hdiv, UInt8.ofNat_toNat, List.cons.injEq, and_true, true_and]
  apply UInt8.toNat_inj.mp
  rw [UInt8.toNat_ofNat']
  omega

/-- The header that `rtw_put_snap` writes is taken off, whatever the type. -/
theorem rtwRecvLlcParse_putSnap (p rest : Bytes) (i n : ℕ) (hn : 8 ≤ n) :
    rtwRecvLlcParse (putSnap (p.be16 i) ++ rest) n = true := by
  have hlow := (p.u8 (i + 1)).toNat_lt
  have htype : Bytes.be16 (putSnap (p.be16 i) ++ rest) snapSize = p.be16 i := by
    have hbytes := ofBe16_be16 p i
    simp only [putSnap, hbytes]
    rfl
  simp only [rtwRecvLlcParse, htype, hn, decide_true, Bool.true_and]
  by_cases htunnel : p.be16 i = 0x8137 ∨ p.be16 i = 0x80f3
  · have hmac : Bytes.mac (putSnap (p.be16 i) ++ rest) 0 = .bridgeTunnelHeader := by
      simp only [putSnap, if_pos htunnel]
      rfl
    simp [hmac]
  · have hmac : Bytes.mac (putSnap (p.be16 i) ++ rest) 0 = .rfc1042Header := by
      simp only [putSnap, if_neg htunnel]
      rfl
    rw [not_or] at htunnel
    simp [hmac, ethPAarp, ethPIpx, htunnel.1, htunnel.2]

/-! ## What comes out -/

/-- What `recv_process_mpdu` does with an Ethernet frame. -/
def handed (env : Env) (a : Adapter) (f : RecvFrame) (ether : Bytes) : List RxEvent :=
  let act := if a.fwState.ap then rtwApRxMsduActCheck env a f.attrib.dst f.attrib.src
    else ⟨true, false⟩
  (if act.forward then recvFwdPktHdl env a f act ether else []) ++
    if act.indicate then [.indicate f.pkt ether] else []

section Process

variable {env : Env} {a : Adapter} {f : RecvFrame} {p payload tail : Bytes} {i : ℕ}

theorem wlanhdrToEthhdr_putSnap (henc : f.attrib.encrypt ≠ .noPrivacy)
    (hdata : f.rxData.drop (f.attrib.hdrlen + f.attrib.ivLen) =
      putSnap (p.be16 i) ++ payload ++ tail)
    (htail : tail.length = f.attrib.icvLen) :
    wlanhdrToEthhdr f true = some (f.attrib.dst.toBytes ++ f.attrib.src.toBytes ++
      ([p.u8 i, p.u8 (i + 1)] ++ payload)) := by
  have hlen : f.rxData.length = f.attrib.hdrlen + f.attrib.ivLen + 8 + payload.length +
      f.attrib.icvLen := by
    have hdrop := congrArg List.length hdata
    simp only [List.length_drop, List.length_append, Xmit.length_putSnap, htail] at hdrop
    omega
  have hcut : (recvframePullTail f f.attrib.icvLen).rxData =
      f.rxData.take (f.attrib.hdrlen + f.attrib.ivLen + 8 + payload.length) := by
    unfold recvframePullTail RecvFrame.len
    rw [if_pos (by omega)]
    exact congrArg (f.rxData.take ·) (by omega)
  -- the type is the end of the LLC header
  have hrest : (f.rxData.take (f.attrib.hdrlen + f.attrib.ivLen + 8 + payload.length)).drop
      (f.attrib.hdrlen + f.attrib.ivLen + snapSize) = [p.u8 i, p.u8 (i + 1)] ++ payload := by
    rw [← List.drop_drop, List.drop_take, hdata,
      show f.attrib.hdrlen + f.attrib.ivLen + 8 + payload.length -
        (f.attrib.hdrlen + f.attrib.ivLen) = (putSnap (p.be16 i) ++ payload).length by
          rw [List.length_append, Xmit.length_putSnap]; omega,
      List.take_left, putSnap, ofBe16_be16]
    rfl
  simp only [wlanhdrToEthhdr, if_pos henc, hcut, if_true, hrest, List.append_nil]
  have htake : (f.rxData.take (f.attrib.hdrlen + f.attrib.ivLen + 8 + payload.length)).length =
      f.attrib.hdrlen + f.attrib.ivLen + 8 + payload.length := by
    rw [List.length_take]
    omega
  rw [htake, if_pos (by simp only [snapSize, ethHlen]; omega)]
  refine congrArg some (List.take_of_length_le ?_)
  simp only [List.length_append, MacAddr.toBytes, List.length_cons, List.length_nil, snapSize,
    ethHlen]
  omega

@[simp] theorem rtwFreeRecvframe_trace (a : Adapter) (id : ℕ) :
    (rtwFreeRecvframe a id).trace = a.trace := rfl

theorem emit_trace (a : Adapter) (es : List RxEvent) : (a.emit es).trace = a.trace ++ es := rfl

/-- **A frame with the header of `rtw_put_snap` comes out as an Ethernet frame.** -/
theorem recvProcessMpdu_putSnap (hamsdu : f.attrib.amsdu = false) (hpkt : f.pkt.isSome)
    (hruns : a.cannotRun = false) (henc : f.attrib.encrypt ≠ .noPrivacy)
    (hdata : f.rxData.drop (f.attrib.hdrlen + f.attrib.ivLen) =
      putSnap (p.be16 i) ++ payload ++ tail)
    (htail : tail.length = f.attrib.icvLen) (hmax : 8 + payload.length < 2 ^ 16) :
    (recvProcessMpdu env a f).2.trace = a.trace ++ .process f :: handed env (a.emit [.process f]) f
      (f.attrib.dst.toBytes ++ f.attrib.src.toBytes ++ ([p.u8 i, p.u8 (i + 1)] ++ payload)) := by
  have hlen : (f.len : ℤ) - (f.attrib.hdrlen + f.attrib.ivLen : ℕ) - f.attrib.icvLen =
      (8 + payload.length : ℕ) := by
    have hdrop := congrArg List.length hdata
    simp only [List.length_drop, List.length_append, Xmit.length_putSnap, htail] at hdrop
    unfold RecvFrame.len
    omega
  have hu16 : u16 ((8 + payload.length : ℕ) : ℤ) = 8 + payload.length := by
    unfold u16
    omega
  have hllc : rtwRecvLlcParse (f.rxData.drop (f.attrib.hdrlen + f.attrib.ivLen))
      (8 + payload.length) = true := by
    rw [hdata, List.append_assoc]
    exact rtwRecvLlcParse_putSnap p _ i _ (Nat.le_add_right 8 _)
  obtain ⟨pkt, hpkt⟩ := Option.isSome_iff_exists.mp hpkt
  unfold recvProcessMpdu handed
  simp only [hamsdu, if_pos henc, hlen, hu16, hllc, wlanhdrToEthhdr_putSnap henc hdata htail,
    Bool.false_eq_true, if_false]
  generalize (if (a.emit [.process f]).fwState.ap then _ else _ : MsduAct) = act
  obtain ⟨indicate, forward⟩ := act
  have hruns' (es : List RxEvent) : (a.emit es).cannotRun = false := hruns
  cases indicate <;> cases forward <;>
    simp [hruns', hpkt, emit_trace]

end Process

/-! ## What the header says -/

def RecvFrame.keyed (f : RecvFrame) : RecvFrame :=
  { f with attrib := { f.attrib with keyIndex := ivKeyIndex (f.rxData.drop f.attrib.hdrlen) } }

section Header

variable {env : Env} {a a' : Adapter} {f g : RecvFrame} {p : RxPktAttrib} {s : StaId} {w : Bytes}

/-- The direction, read off the second octet. -/
theorem getDs_u8 (w : Bytes) :
    getToDs w = (w.u8 1 &&& 1 != 0) ∧ getFrDs w = (w.u8 1 &&& 2 != 0) := by
  have hx := (w.u8 0).toNat_lt
  have hbit (k : ℕ) : (frameCtrl w).testBit (8 + k) = (w.u8 1).toNat.testBit k := by
    have hdiv : frameCtrl w / 2 ^ 8 = (w.u8 1).toNat := by
      show ((w.u8 0).toNat + 256 * (w.u8 1).toNat) / 256 = _
      omega
    rw [← hdiv, Nat.testBit_div_two_pow, Nat.add_comm]
  have hbits : ∀ n < 256, (UInt8.ofNat n).toNat.testBit 0 = (UInt8.ofNat n &&& 1 != 0) ∧
      (UInt8.ofNat n).toNat.testBit 1 = (UInt8.ofNat n &&& 2 != 0) := by decide +kernel
  have hctrl := hbits (w.u8 1).toNat (w.u8 1).toNat_lt
  rw [UInt8.ofNat_toNat] at hctrl
  exact ⟨(hbit 0).trans hctrl.1, (hbit 1).trans hctrl.2⟩

/-- The destination and the source of a frame, as its direction has them. -/
theorem validateDataHdr_addresses (hknown : a.fwState.ap ∨ a.fwState.station)
    (hds : f.attrib.toFrDs = getToFrDs f.rxData) (hthree : getToFrDs f.rxData ≠ 3)
    (h : validateDataHdr a f = ((.success, p, some s), a')) :
    ∃ dst src bssid, p = f.attrib.setAddrs (getAddr1 f.rxData) (getAddr2 f.rxData) dst src bssid ∧
      ∀ i, dst.toBytes ++ src.toBytes ++ [i, 0, 0, 0] = micPseudo f.rxData i := by
  obtain ⟨hto, hfr⟩ := getDs_u8 f.rxData
  have hpseudo (i : UInt8) : micPseudo f.rxData i =
      (f.rxData.mac (if getToDs f.rxData then 16 else 4)).toBytes ++
        (f.rxData.mac (if getToDs f.rxData then (if getFrDs f.rxData then 24 else 10)
          else if getFrDs f.rxData then 16 else 10)).toBytes ++ [i, 0, 0, 0] := by
    rw [hto, hfr]
    rfl
  simp only [hpseudo]
  rw [getToFrDs] at hds hthree
  cases htods : getToDs f.rxData <;> cases hfrds : getFrDs f.rxData <;>
    rw [htods, hfrds] at hds hthree
  case true.true => exact absurd rfl hthree
  case false.true =>
    -- from an access point
    obtain ⟨-, -, rfl⟩ := Coop.validateDataHdr_success (.inl hds) h
    have hk : (a.fwState.ap || a.fwState.station) = true := by simpa using hknown
    exact ⟨_, _, _, rfl, fun i => by simp [hds, hk, getAddr1, getAddr3]⟩
  case true.false =>
    -- to an access point
    have hap : a.fwState.ap = true := by
      by_contra hap
      have hstation := hknown.resolve_left hap
      unfold validateDataHdr rtwStaRxDataValidateHdr at h
      rw [if_neg hap, if_pos hstation] at h
      simp only [hds] at h
      split_ifs at h <;> simp_all
    obtain ⟨-, -, rfl⟩ := Coop.validateDataHdr_success (.inr ⟨hds, hap⟩) h
    rw [hap]
    exact ⟨_, _, _, rfl, fun i => by simp [hds, getAddr2, getAddr3]⟩
  case false.false =>
    -- between stations
    unfold validateDataHdr at h
    split_ifs at h with hap hstation
    · have hup := (Coop.rtwApRxDataValidateHdr_success (by rw [hds]; decide) h).1
      rw [hds] at hup
      exact absurd hup (by decide)
    · unfold rtwStaRxDataValidateHdr at h
      extract_lets w p₀ p₁ at h
      rw [if_pos (show p₀.toFrDs = 0 from hds)] at h
      split at h
      · cases h
      split at h
      · cases h
      · have hp : p₁ = p := congrArg (·.1.2.1) h
        exact ⟨_, _, _, hp.symm, fun i => by simp [w, getAddr1, getAddr2]⟩
    · exact absurd hknown (by simp [hap, hstation])

/-- **A frame that is accepted** is the one that stands in front of its decryption: its attributes
are those of its header. -/
theorem validateRecvFrame_parsed (hknown : a.fwState.ap ∨ a.fwState.station)
    (hthree : getToFrDs f.rxData ≠ 3) (h : validateRecvFrame env a f = (.success, g, a')) :
    g.rxData = f.rxData ∧ g.pkt = f.pkt ∧ g.attrib.bdecrypted = f.attrib.bdecrypted ∧
      g.attrib.amsdu = (subTypeQos f.rxData && getAMsdu f.rxData wlanHdrA3Len) ∧
      (∀ enc, g.attrib.encrypt = enc → g.parsed enc f.rxData = g.keyed) ∧
      ∀ i, g.attrib.dst.toBytes ++ g.attrib.src.toBytes ++ [i, 0, 0, 0] = micPseudo f.rxData i := by
  unfold validateRecvFrame at h
  extract_lets w f₁ p₁ f₂ r at h
  split at h
  · cases h
  split at h
  · cases h
  · cases h
  · obtain ⟨hret, hg, -⟩ : r.1 = .success ∧ r.2.1 = g ∧ _ := by simpa [Prod.ext_iff] using h
    have hr : validateRecvDataFrame a f₂ = (.success, g, r.2.2) := by
      rw [← hret, ← hg]
    obtain ⟨p, s, a₁, hhdr, hbody⟩ := Coop.validateRecvDataFrame_success hr
    obtain ⟨dst, src, bssid, rfl, hpseudo⟩ := validateDataHdr_addresses hknown (by rfl)
      (by exact hthree) hhdr
    obtain rfl := Coop.validateDataBody_success hbody
    have hshift : a4Shift (getToFrDs f.rxData) = 0 := if_neg hthree
    refine ⟨rfl, rfl, ?_, ?_, ?_, ?_⟩
    case refine_3 =>
      rintro enc rfl
      cases hqos : subTypeQos f.rxData <;> cases horder : getOrder f.rxData <;>
        simp [RecvFrame.parsed, RecvFrame.keyed, parsedAttrib, setReorderEncrypt, setEncrypt,
          parseQc, RxPktAttrib.setAddrs, f₂, f₁, p₁, w, parseFrameCtrl, hshift, hqos, horder]
    all_goals
      cases hqos : subTypeQos f.rxData <;> cases horder : getOrder f.rxData <;>
        simp [setReorderEncrypt, setEncrypt, parseQc, RxPktAttrib.setAddrs, f₂, f₁, p₁, w,
          parseFrameCtrl, hshift, hqos, horder, hpseudo]
  · cases h

end Header

/-! ## Decryption -/

section Decrypt

variable {c : Crypto} {a : Adapter} {f : RecvFrame}

theorem swDecrypt_eq (c : Crypto) (a : Adapter) (f : RecvFrame) :
    (swDecrypt c a f).2 = { f with rxData := (swDecrypt c a f).2.rxData } := by
  simp only [swDecrypt, rtwWepDecrypt, rtwTkipDecrypt, rtwAesDecrypt, rtwGcmpDecrypt,
    rtwAeadDecrypt]
  split <;> (try split) <;> (try split) <;> rfl

/-- The check of the Michael code neither reads nor clears the mark of decryption. -/
theorem recvframeChkmic_setBdecrypted (c : Crypto) (a : Adapter) (f : RecvFrame) :
    recvframeChkmic c a f.setBdecrypted = ((recvframeChkmic c a f).1,
      (recvframeChkmic c a f).2.1.setBdecrypted, (recvframeChkmic c a f).2.2) ∧
    (recvframeChkmic c a f).2.1.attrib = f.attrib ∧ (recvframeChkmic c a f).2.1.pkt = f.pkt := by
  have hpull (g : RecvFrame) : recvframePullTail g.setBdecrypted 8 =
      (recvframePullTail g 8).setBdecrypted ∧ (recvframePullTail g 8).attrib = g.attrib ∧
        (recvframePullTail g 8).pkt = g.pkt := by
    unfold recvframePullTail
    by_cases h : 8 ≤ g.len
    · rw [if_pos (show 8 ≤ g.setBdecrypted.len from h), if_pos h]
      exact ⟨rfl, rfl, rfl⟩
    · rw [if_neg (show ¬8 ≤ g.setBdecrypted.len from h), if_neg h]
      exact ⟨rfl, rfl, rfl⟩
  obtain ⟨hset, hattrib, hpkt⟩ := hpull f
  unfold recvframeChkmic
  rw [hset, show f.setBdecrypted.attrib = { f.attrib with bdecrypted := true } from rfl]
  by_cases htkip : f.attrib.encrypt ≠ .tkip
  · simp [htkip]
  simp only [htkip, if_false]
  split
  · exact ⟨rfl, hattrib, hpkt⟩
  · split
    · exact ⟨rfl, rfl, rfl⟩
    · exact ⟨rfl, hattrib, hpkt⟩

def afterDecryptor (a : Adapter) (f : RecvFrame) : Adapter :=
  if getFrameType f.rxData = .data then a.setHwDecrypted false else a

theorem decryptor_of_swDecrypt (henc : f.attrib.encrypt ≠ .noPrivacy)
    (hnew : f.attrib.bdecrypted = false) (h : (swDecrypt c (afterDecryptor a f) f.keyed).1 = true) :
    decryptor c a f =
      (some (swDecrypt c (afterDecryptor a f) f.keyed).2.setBdecrypted, afterDecryptor a f) := by
  have hfirst : (!f.attrib.bdecrypted) = true := by rw [hnew, Bool.not_false]
  unfold decryptor
  simp only [ne_eq, henc, not_false_eq_true, if_true, hfirst, and_self]
  exact if_pos h

/-- A payload that the software recovers comes through the decryptor and the check of the code. -/
theorem Undone.recovered {msdu : Bytes} (henc : f.attrib.encrypt ≠ .noPrivacy)
    (hnew : f.attrib.bdecrypted = false) (h : Undone c (afterDecryptor a f) f.keyed msdu) :
    ∃ d k b, decryptor c a f = (some d, afterDecryptor a f) ∧
      recvframeChkmic c (afterDecryptor a f) d = (true, k, b) ∧
      k.attrib = { f.keyed.attrib with bdecrypted := true } ∧ k.pkt = f.pkt ∧
      ∃ tail, k.rxData.drop (f.attrib.hdrlen + f.attrib.ivLen) = msdu ++ tail ∧
        tail.length = f.attrib.icvLen := by
  obtain ⟨hd, hk, hdata⟩ := h
  have hdecryptor := decryptor_of_swDecrypt henc hnew hd
  have hkept := swDecrypt_eq c (afterDecryptor a f) f.keyed
  generalize (swDecrypt c (afterDecryptor a f) f.keyed).2 = d at *
  obtain ⟨hset, hattrib, hpkt⟩ := recvframeChkmic_setBdecrypted c (afterDecryptor a f) d
  rw [hk] at hset
  refine ⟨_, _, _, hdecryptor, hset, ?_, ?_, hdata⟩
  · show { (recvframeChkmic c _ d).2.1.attrib with bdecrypted := true } = _
    rw [hattrib, hkept]
  · show (recvframeChkmic c _ d).2.1.pkt = _
    rw [hpkt, hkept]
    rfl

end Decrypt

section Delivered

open Xmit

variable {base : TxCrypto} {rxBase : Crypto} {aes : Bytes → Block → Block} {spp : Bool}
  {a : Xmit.Adapter} {psta : Xmit.StaInfo} {f : XmitFrame} {m : Mem} {r : Coalesced}
  {b b' : Adapter} {g v : RecvFrame} {env : Env}

theorem updateAttrib_etherType {pkt : Bytes} {eapol : EapType} {p q : PktAttrib}
    (h : updateAttrib a pkt eapol p = some (q, psta)) : q.etherType = pkt.be16 12 := by
  obtain ⟨psta₀, -, h⟩ := Option.bind_eq_some_iff.mp h
  split_ifs at h
  obtain ⟨⟨p₁, psta₁⟩, hsec, h⟩ := Option.map_eq_some_iff.mp h
  obtain ⟨-, hp₁, -⟩ := updateAttribSecInfo_some hsec
  obtain ⟨hdrlen, subtype, priority, hqos, -⟩ := setQos_eq a pkt { p₁ with
    pktHdrlen := ethHlen, hdrlen := wlanHdrA3Len, subtype := wifiDataType, priority := 0
    qosEn := psta₁.qosOption, psta := some (staKey p₁.ra), ackPolicy := 0, mdata := false
    eosp := false }
  simp only [hqos] at h
  obtain ⟨rfl, rfl⟩ := Prod.mk.inj h
  show p₁.etherType = _
  rw [hp₁]
  simp only [setAddresses]
  split <;> rfl

theorem Sent.etherType (h : Sent base aes spp a psta f m r) :
    f.attrib.etherType = f.pkt.be16 12 := by
  obtain ⟨eapol, p, q, mdata, eosp, -, hattrib, hf⟩ := h.attrib
  rw [hf, ← updateAttrib_etherType hattrib]
  unfold doQueueSelect
  split <;> rfl

/-- The octets of a frame begin with its header. -/
theorem Sent.begins (h : Sent base aes spp a psta f m r) : ∃ hdr rest qos,
    sentOctets f r = hdr ++ rest ∧ HdrReads hdr f.attrib.ra f.attrib.ta qos f.attrib.priority ∧
      ∀ priority, micPseudo hdr priority = micAddresses a f.attrib ++ [priority, 0, 0, 0] := by
  have halign : f.memStart % 4 = 0 := by
    have haligned := h.aligned
    rw [XmitFrame.memStart, hwHdrOffset, txdescSize, packetOffsetSz]
    omega
  obtain ⟨hdr, qos, hair⟩ := onAir h.outgoing h.one halign h.bswenc h.cipher h.built h.res
  have hsome : ((softTx base aes spp).encipher f.attrib.encrypt (swKey a f.attrib) f.attrib.ta hdr
      (Xmit.octets f.attrib.iv f.attrib.ivLen) (plainBody (softTx base aes spp)
        (micKey a f.attrib) f.attrib hdr f.payload)).isSome := by
    have hcipher := h.cipher
    cases henc : f.attrib.encrypt <;> rw [henc] at hcipher <;>
      first | rfl | exact absurd hcipher Bool.false_ne_true
  obtain ⟨body, hbody⟩ := Option.isSome_iff_exists.mp hsome
  exact ⟨hdr, _, qos, (hair.octets body hbody).trans (List.append_assoc _ _ _), hair.reads,
    hair.pseudo⟩

/-- The header of a frame that is sent announces no A-MSDU. -/
theorem Xmit.HdrReads.amsdu_append {hdr rest : Bytes} {a₁ a₂ : MacAddr} {qos : Bool} {priority : ℕ}
    (h : HdrReads hdr a₁ a₂ qos priority) :
    (subTypeQos (hdr ++ rest) && getAMsdu (hdr ++ rest) wlanHdrA3Len) = false := by
  have hlength := h.length
  have hlong : 24 ≤ hdr.length := by
    rw [hlength]
    split <;> decide
  have hfc : frameCtrl (hdr ++ rest) = frameCtrl hdr := Bytes.le16_append (by omega) rest
  have hqos : subTypeQos (hdr ++ rest) = qos := by rw [subTypeQos, hfc, ← h.isQos, subTypeQos]
  rw [hqos]
  cases qos with
  | false => rfl
  | true =>
    have hbits : ∀ n < 256, UInt8.ofNat n &&& 0x8f = UInt8.ofNat n &&& 0x0f → n < 128 := by
      decide +kernel
    have hlow := hbits (Bytes.u8 hdr wlanHdrA3Len).toNat (Bytes.u8 hdr wlanHdrA3Len).toNat_lt (by
      rw [UInt8.ofNat_toNat]
      exact h.amsdu)
    rw [Bool.true_and, getAMsdu, Bytes.le16_append (by rw [hlength]; decide) rest, Bytes.le16,
      Nat.testBit_eq_decide_div_mod_eq, decide_eq_false_iff_not]
    omega

theorem micPseudo_append {hdr rest : Bytes} (hlen : 24 ≤ hdr.length) (hthree : ThreeAddr hdr)
    (i : UInt8) : micPseudo (hdr ++ rest) i = micPseudo hdr i := by
  simp only [micPseudo, Bytes.u8_append (show 1 < hdr.length by omega)]
  rw [ThreeAddr] at hthree
  cases hto : Bytes.u8 hdr 1 &&& 1 != 0 <;> cases hfr : Bytes.u8 hdr 1 &&& 2 != 0
  case true.true => exact absurd ⟨hto, hfr⟩ hthree
  all_goals
    simp only [if_true, Bool.false_eq_true, if_false]
    rw [Bytes.mac_append (by omega), Bytes.mac_append (by omega)]

theorem drop_type {pkt : Bytes} (h : ethHlen ≤ pkt.length) :
    pkt.drop 12 = [pkt.u8 12, pkt.u8 13] ++ pkt.drop ethHlen := by
  rw [ethHlen] at h
  rw [List.drop_eq_getElem_cons (by omega), List.drop_eq_getElem_cons (by omega)]
  simp [Bytes.u8, List.getD, ethHlen, show 12 < pkt.length by omega, show 13 < pkt.length by omega]

theorem KeysShared.setHwDecrypted {p : PktAttrib} (h : KeysShared a psta p b) (x : Bool) :
    KeysShared a psta p (b.setHwDecrypted x) := ⟨h.1, h.2, h.3, h.4, h.5, h.6⟩

end Delivered

def dynPeer : Adapter :=
  { dynSta with
    macAddr := dynAddr 2
    fwState := { station := true, asoc := true }
    securitypriv := { dynSta.securitypriv with dot11PrivacyAlgrthm := .wep40 } }

def dynBuffer : RecvFrame := { id := 0, pkt := some 0 }

def dynOctets : Bytes :=
  sentOctets (dynFrame false) ((dynBuilt false).get (dynBuilt_isSome false))

def dynHeard : Ret × RecvFrame × Adapter :=
  validateRecvFrame { crypto := Defrag.idleCrypto } dynPeer { dynBuffer with rxData := dynOctets }

theorem dynHeard_keysShared :
    KeysShared (dynAp false) (dynUpdated false).2 (dynFrame false).attrib dynHeard.2.2 where
  defKey := by decide +kernel
  grpKey := by decide +kernel
  grpMicKey := by decide +kernel
  grpKeyid := by decide +kernel
  installed := by decide +kernel
  sta := ⟨0, by decide +kernel, fun _ => ⟨by decide +kernel, by decide +kernel⟩⟩

theorem dynHeard_eq :
    validateRecvFrame { crypto := Defrag.idleCrypto } dynPeer
      { dynBuffer with rxData := dynOctets } = (.success, dynHeard.2.1, dynHeard.2.2) :=
  Prod.ext (by decide +kernel : dynHeard.1 = .success) rfl

end Rtl88x2eu
