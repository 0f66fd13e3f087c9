import Rtl88x2eu.Crypto.Gcm
import Rtl88x2eu.Crypto.Michael
import Rtl88x2eu.Crypto.Tkip
import Rtl88x2eu.Recv.DefragIntegrity
import Rtl88x2eu.Xmit.MgntCoalesce
import Rtl88x2eu.Xmit.Mpdu

/-!
# Software encryption, undone

A data frame that the transmit path has encrypted by software is given to the software decryption of
a receiver that holds the same keys. The sender takes its keys and the priority from the attributes
of the frame; the receiver finds them by what stands in the header and in the vector.

## Main definitions

* `softTx`, `softRx`: the software ciphers of both paths, over any block cipher
* `Sent`, `KeysShared`, `Undone`, `Agrees`

## Main results

* `undone_wep`, `undone_tkip`, `undone_gcmp`: one frame under two keys
* `undone_iff_agrees`: the exact condition of the round trip
* `not_undone`: WEP is encrypted under the key that is set for transmission, also where the vector
  names another one
-/

namespace Rtl88x2eu

/-- The software ciphers of the transmit path, over a block cipher; `spp` is the A-MSDU mode. No
allocation fails. -/
def softTx (base : Xmit.TxCrypto) (aes : Bytes → Block → Block) (spp : Bool) : Xmit.TxCrypto where
  encipher enc key ta hdr iv data :=
    match enc with
    | .wep40 | .wep104 => some (icvSeal (iv.take 3 ++ key) data)
    | .tkip => some (icvSeal (tkipRc4key key ta (ivToPn .tkip iv)) data)
    | .gcmp | .gcmp256 =>
      let (aad, nonce) := gcmpAadNonce spp hdr iv
      let (crypt, tag) := aesGcmAe aes (key.take (aeadKeyLen enc)) nonce data aad
      some (crypt ++ tag)
    | _ => base.encipher enc key ta hdr iv data
  length_encipher := by
    intro enc key ta hdr iv data body h
    cases enc
    case wep40 | wep104 | tkip =>
      rw [← Option.some.inj h, length_icvSeal]
      rfl
    case gcmp | gcmp256 =>
      rw [← Option.some.inj h]
      simp only [aesGcmGctr, List.length_append, length_aesGctr, length_gcmTag]
      rfl
    all_goals exact base.length_encipher h
  secmic := michael
  length_secmic := length_michael
  calculateBipMic := base.calculateBipMic

/-- The software ciphers of the receive path. -/
def softRx (base : Crypto) (aes : Bytes → Block → Block) : Crypto :=
  { base with
    arcfour := arcfour
    getcrc32 := icv
    tkipRc4key := tkipRc4key
    seccalctkipmic := seccalctkipmic
    aesGcmAd := aesGcmAd aes }

/-- The attributes of a data frame in front of its decryption, from those of its descriptor. -/
def parsedAttrib (enc : SecurityType) (p : RxPktAttrib) (w : Bytes) : RxPktAttrib :=
  let p := parseQc w { parseFrameCtrl w p with
    qos := subTypeQos w, ra := getAddr1 w, ta := getAddr2 w }
  { p with
    encrypt := enc
    ivLen := enc.ivLen
    icvLen := enc.icvLen
    keyIndex := ivKeyIndex (w.drop p.hdrlen) }

/-- A received MPDU in front of its decryption. -/
def RecvFrame.parsed (g : RecvFrame) (enc : SecurityType) (w : Bytes) : RecvFrame :=
  { g with rxData := w, attrib := parsedAttrib enc g.attrib w }

/-- **The receiver gets back a text**: the frame is decrypted, its Michael code is right, and the
text stands behind the initialisation vector, in front of what `icv_len` leaves for the end. -/
def Undone (c : Crypto) (a : Adapter) (g : RecvFrame) (msdu : Bytes) : Prop :=
  let d := swDecrypt c a g
  let k := recvframeChkmic c a d.2
  d.1 = true ∧ k.1 = true ∧ ∃ tail,
    k.2.1.rxData.drop (g.attrib.hdrlen + g.attrib.ivLen) = msdu ++ tail ∧
      tail.length = g.attrib.icvLen

/-! ## One text under two keys -/

section Texts

variable {aes : Bytes → Block → Block} {c : Crypto} {b : Adapter} {g : RecvFrame}
  {w hdr iv text : Bytes}

theorem exists_tail_iff {α : Type*} {xs ys : List α} {n : ℕ} (h : xs.length = ys.length + n) :
    (∃ tail, xs = ys ++ tail ∧ tail.length = n) ↔ xs.take ys.length = ys := by
  constructor
  · rintro ⟨tail, rfl, -⟩
    exact List.take_left' rfl
  · intro htake
    refine ⟨xs.drop ys.length, ?_, by rw [List.length_drop]; omega⟩
    conv_lhs => rw [← List.take_append_drop ys.length xs, htake]

theorem overwrite_part {pre body body' tail : Bytes} (h : body'.length = body.length) :
    (pre ++ (body ++ tail)).overwrite pre.length body' = pre ++ (body' ++ tail) := by
  rw [Bytes.overwrite, List.take_left' rfl, ← List.append_assoc pre, h, ← List.length_append,
    List.drop_left' rfl, List.append_assoc]

theorem overwrite_rest {pre body body' : Bytes} (h : body'.length = body.length) :
    (pre ++ body).overwrite pre.length body' = pre ++ body' := by
  rw [← List.append_nil body, overwrite_part h, List.append_nil]

@[simp] theorem parsedAttrib_ivLen (enc : SecurityType) (p : RxPktAttrib) (w : Bytes) :
    (parsedAttrib enc p w).ivLen = enc.ivLen := rfl

@[simp] theorem parsedAttrib_icvLen (enc : SecurityType) (p : RxPktAttrib) (w : Bytes) :
    (parsedAttrib enc p w).icvLen = enc.icvLen := rfl

@[simp] theorem parsedAttrib_encrypt (enc : SecurityType) (p : RxPktAttrib) (w : Bytes) :
    (parsedAttrib enc p w).encrypt = enc := rfl

theorem keyIndex_parsed {enc : SecurityType} {body : Bytes} (hw : w = hdr ++ iv ++ body)
    (hhdr : (parsedAttrib enc g.attrib w).hdrlen = hdr.length) (hiv : 4 ≤ iv.length) :
    (parsedAttrib enc g.attrib w).keyIndex = ivKeyIndex iv := by
  show ivKeyIndex (w.drop (parsedAttrib enc g.attrib w).hdrlen) = _
  rw [hhdr, hw, List.append_assoc, List.drop_left' rfl]
  simp [ivKeyIndex, Bytes.u8, List.getD, List.getElem?_append_left (show 3 < iv.length by omega)]

theorem undone_iff_of_ne_tkip {enc : SecurityType} {ok : Bool} {f : RecvFrame}
    (hne : enc ≠ .tkip) (hdecrypt : swDecrypt c b (g.parsed enc w) = (ok, f))
    (hattrib : f.attrib = parsedAttrib enc g.attrib w) :
    Undone c b (g.parsed enc w) text ↔ ok = true ∧ ∃ tail,
      f.rxData.drop ((parsedAttrib enc g.attrib w).hdrlen + enc.ivLen) = text ++ tail ∧
        tail.length = enc.icvLen := by
  have hmic : recvframeChkmic c b f = (true, f, b) := if_pos (by rw [hattrib]; exact hne)
  simp only [Undone, hdecrypt, hmic, true_and]
  rfl

theorem undone_wep {enc : SecurityType} {key : Bytes} (henc : enc = .wep40 ∨ enc = .wep104)
    (hw : w = hdr ++ iv ++ icvSeal (iv.take 3 ++ key) text)
    (hhdr : (parsedAttrib enc g.attrib w).hdrlen = hdr.length) (hiv : iv.length = 4) :
    Undone (softRx c aes) b (g.parsed enc w) text ↔
      keystream (iv.take 3 ++ key) text.length =
        keystream (iv.take 3 ++ b.securitypriv.dot11DefKey (ivKeyIndex iv)) text.length := by
  have hkey := keyIndex_parsed hw hhdr hiv.ge
  have hstart : (hdr ++ iv).length = hdr.length + 4 := by rw [List.length_append, hiv]
  have hlens : enc.ivLen = 4 ∧ enc.icvLen = 4 := by rcases henc with rfl | rfl <;> exact ⟨rfl, rfl⟩
  have hne : enc ≠ .tkip := by rcases henc with rfl | rfl <;> decide
  have hdecrypt : swDecrypt (softRx c aes) b (g.parsed enc w) =
      (true, rtwWepDecrypt (softRx c aes) b (g.parsed enc w)) := by
    rcases henc with rfl | rfl <;> rfl
  have hdrop : w.drop (hdr.length + 4) = icvSeal (iv.take 3 ++ key) text := by
    rw [hw, ← hstart, List.drop_left' rfl]
  have hiv3 : (w.drop hdr.length).take 3 = iv.take 3 := by
    rw [hw, List.append_assoc, List.drop_left' rfl, List.take_append_of_le_length (by omega)]
  have hplain : (rtwWepDecrypt (softRx c aes) b (g.parsed enc w)).rxData.drop (hdr.length + 4) =
      arcfour (iv.take 3 ++ b.securitypriv.dot11DefKey (ivKeyIndex iv))
        (icvSeal (iv.take 3 ++ key) text) := by
    simp only [rtwWepDecrypt, RecvFrame.parsed, hhdr, hkey, parsedAttrib_ivLen, hlens.1, hdrop,
      hiv3]
    rw [← hstart, hw]
    exact (congrArg (List.drop _) (overwrite_rest (length_arcfour _ _))).trans
      (List.drop_left' rfl)
  rw [← take_arcfour_icvSeal_iff, ← exists_tail_iff (n := 4) (by simp),
    undone_iff_of_ne_tkip hne hdecrypt rfl, hhdr, hlens.1, hlens.2, ← hplain]
  exact and_iff_right rfl

theorem eq_seal_iff {p text mic : Bytes} (hp : p.length = text.length + 12)
    (hmic : mic.length = 8) :
    p = (text ++ mic) ++ icv (text ++ mic) ↔
      icv (p.take (p.length - 4)) = p.drop (p.length - 4) ∧
        mic = (p.drop text.length).take 8 ∧ p.take text.length = text := by
  have hlen : p.length - 4 = (text ++ mic).length := by
    rw [List.length_append, hp, hmic]
    omega
  rw [hlen]
  constructor
  · intro h
    rw [h, List.take_left' rfl, List.drop_left' rfl, List.append_assoc, List.drop_left' rfl,
      List.take_left' rfl, List.take_left' hmic]
    exact ⟨rfl, rfl, rfl⟩
  · rintro ⟨hicv, hcode, htext⟩
    have hsplit : p.take (text ++ mic).length = text ++ mic := by
      rw [List.length_append, hmic, List.take_add, htext, ← hcode]
    rw [hsplit] at hicv
    rw [hicv, ← hsplit, List.length_take, Nat.min_eq_left (by omega), List.take_append_drop]

/-- The code of the receiver goes over the octets of the header alone. -/
theorem seccalctkipmic_append {rest key : Bytes} {pri : ℕ} (hlen : 24 ≤ hdr.length)
    (hthree : Xmit.ThreeAddr hdr) :
    seccalctkipmic key (hdr ++ rest) text pri =
      michael key (Xmit.micPseudo hdr (UInt8.ofNat pri) ++ text) := by
  simp only [seccalctkipmic_eq, Xmit.micPseudo, Bytes.u8_append (show 1 < hdr.length by omega)]
  rw [Xmit.ThreeAddr] at hthree
  cases hto : Bytes.u8 hdr 1 &&& 1 != 0 <;> cases hfr : Bytes.u8 hdr 1 &&& 2 != 0
  case true.true => exact absurd ⟨hto, hfr⟩ hthree
  all_goals
    simp only [if_true, Bool.false_eq_true, if_false]
    rw [Bytes.mac_append (by omega), Bytes.mac_append (by omega)]

/-- **What the receiver knows of a frame** in front of its decryption. -/
theorem parsedAttrib_reads {rest : Bytes} {a₁ a₂ : MacAddr} {qos : Bool} {priority : ℕ}
    (h : Xmit.HdrReads hdr a₁ a₂ qos priority) (hw : w = hdr ++ iv ++ rest) (enc : SecurityType)
    (p : RxPktAttrib) :
    (parsedAttrib enc p w).hdrlen = hdr.length ∧ (parsedAttrib enc p w).ra = a₁ ∧
      (parsedAttrib enc p w).ta = a₂ ∧
      (parsedAttrib enc p w).priority = if qos then priority % 16 else 0 := by
  rw [hw, List.append_assoc]
  generalize iv ++ rest = rest
  have hlen : 24 ≤ hdr.length := by
    rw [h.length]
    split <;> decide
  have hfc : frameCtrl (hdr ++ rest) = frameCtrl hdr := Bytes.le16_append (by omega) rest
  have hqos : subTypeQos (hdr ++ rest) = qos := by rw [subTypeQos, hfc, ← h.isQos, subTypeQos]
  have horder : getOrder (hdr ++ rest) = false := by rw [getOrder, hfc, ← h.order, getOrder]
  have hshift : a4Shift (getToFrDs (hdr ++ rest)) = 0 := by
    rw [getToFrDs, getFrDs, getToDs, hfc]
    exact if_neg h.toFrDs
  have haddr1 : getAddr1 (hdr ++ rest) = a₁ := by
    rw [← h.addr1]
    exact Bytes.mac_append (by omega) rest
  have haddr2 : getAddr2 (hdr ++ rest) = a₂ := by
    rw [← h.addr2]
    exact Bytes.mac_append (by omega) rest
  simp only [parsedAttrib, parseQc, parseFrameCtrl, hqos, horder, hshift, haddr1, haddr2, h.length]
  cases qos
  · exact ⟨rfl, rfl, rfl, rfl⟩
  · have hpri : getPriority (hdr ++ rest) wlanHdrA3Len = priority % 16 := by
      rw [← h.tid rfl]
      exact congrArg (· % 16) (Bytes.le16_append (by rw [h.length]; decide) rest)
    exact ⟨rfl, rfl, rfl, hpri⟩

def rxTkipKey (b : Adapter) (s : StaId) (p : RxPktAttrib) : Bytes :=
  if p.ra.isMcast then b.securitypriv.dot118021XGrpKey p.keyIndex
  else (b.sta s).dot118021xUncstKey

/-- The Michael key that `recvframe_chkmic` takes. -/
def rxMicKey (b : Adapter) (s : StaId) (p : RxPktAttrib) : Bytes :=
  if p.ra.isMcast then b.securitypriv.dot118021XGrprxmickey p.keyIndex
  else (b.sta s).dot11tkiprxmickey

/-- The code is compared over the text, and the last eight octets go. -/
theorem recvframeChkmic_body {s : StaId} {f : RecvFrame} {pre q : Bytes} {n : ℕ}
    (henc : f.attrib.encrypt = .tkip) (hicv : f.attrib.icvLen = 4) (hrx : f.rxData = pre ++ q)
    (hpre : pre.length = f.attrib.hdrlen + f.attrib.ivLen) (hq : q.length = n + 12)
    (hlt : f.rxData.length < 2 ^ 32) (hsta : rtwGetStainfo b f.attrib.ta = some s)
    (hinstalled : b.securitypriv.binstallGrpkey = true) :
    (recvframeChkmic c b f).1 = decide (c.seccalctkipmic (rxMicKey b s f.attrib) f.rxData (q.take n)
        f.attrib.priority = (q.drop n).take 8) ∧
      (recvframeChkmic c b f).2.1.rxData.drop (f.attrib.hdrlen + f.attrib.ivLen) =
        q.take (n + 4) := by
  have hrest : f.rxData.drop (f.attrib.hdrlen + f.attrib.ivLen) = q := by
    rw [hrx, ← hpre, List.drop_left' rfl]
  have hlen : f.rxData.length = f.attrib.hdrlen + f.attrib.ivLen + n + 12 := by
    rw [hrx, List.length_append, hpre, hq]
    omega
  have hdatalen : (((f.len : ℤ) - f.attrib.hdrlen - f.attrib.ivLen - f.attrib.icvLen - 8) %
      2 ^ 32).toNat = n := by
    rw [RecvFrame.len, hicv, hlen]
    omega
  simp only [recvframeChkmic, henc, ne_eq, not_true_eq_false, if_false, hsta, hinstalled,
    Bool.not_true, Bool.and_false, Bool.false_eq_true, hdatalen, hrest]
  refine ⟨rfl, ?_⟩
  rw [recvframePullTail, if_pos (by rw [RecvFrame.len]; omega)]
  show (f.rxData.take (f.rxData.length - 8)).drop _ = _
  rw [List.drop_take, hrest, hlen]
  congr 1
  omega

theorem undone_tkip {s : StaId} {p : RxPktAttrib} {rc4key mic : Bytes} (hlen : 24 ≤ hdr.length)
    (hthree : Xmit.ThreeAddr hdr) (hiv : iv.length = 8) (hmic : mic.length = 8)
    (hw : w = hdr ++ iv ++ icvSeal rc4key (text ++ mic)) (hlt : w.length < 2 ^ 32)
    (hp : parsedAttrib .tkip g.attrib w = p) (hhdr : p.hdrlen = hdr.length)
    (hsta : rtwGetStainfo b p.ta = some s) (hinstalled : b.securitypriv.binstallGrpkey = true) :
    Undone (softRx c aes) b (g.parsed .tkip w) text ↔
      icvSeal rc4key (text ++ mic) =
        icvSeal (tkipRc4key (rxTkipKey b s p) p.ta (ivToPn .tkip iv))
          (text ++ michael (rxMicKey b s p)
            (Xmit.micPseudo hdr (UInt8.ofNat p.priority) ++ text)) := by
  have hiv8 : p.ivLen = 8 := by rw [← hp]; rfl
  have hicv4 : p.icvLen = 4 := by rw [← hp]; rfl
  have henc : p.encrypt = .tkip := by rw [← hp]; rfl
  have hstart : (hdr ++ iv).length = hdr.length + 8 := by rw [List.length_append, hiv]
  have hpn : ivToPn .tkip (w.drop hdr.length) = ivToPn .tkip iv := by
    rw [hw, List.append_assoc, List.drop_left' rfl, ← ivToPn_take, List.take_left' hiv]
  have hbody : w.drop (hdr.length + 8) = icvSeal rc4key (text ++ mic) := by
    rw [hw, ← hstart, List.drop_left' rfl]
  generalize hq : arcfour (tkipRc4key (rxTkipKey b s p) p.ta (ivToPn .tkip iv))
    (icvSeal rc4key (text ++ mic)) = q
  have hqlen : q.length = text.length + 12 := by
    rw [← hq, length_arcfour, length_icvSeal, List.length_append, hmic]
  -- the frame with its text in place
  have hoverwrite : w.overwrite (hdr.length + 8) q = hdr ++ iv ++ q := by
    have hlength : q.length = (icvSeal rc4key (text ++ mic)).length := by
      rw [← hq, length_arcfour]
    rw [hw, ← hstart, overwrite_rest hlength]
  have hdecrypt : swDecrypt (softRx c aes) b (g.parsed .tkip w) =
      (icv (q.take (q.length - 4)) == q.drop (q.length - 4),
        { g.parsed .tkip w with rxData := hdr ++ iv ++ q }) := by
    show rtwTkipDecrypt (softRx c aes) b (g.parsed .tkip w) = _
    simp only [rtwTkipDecrypt, RecvFrame.parsed, hp, hsta, hinstalled, Bool.not_true,
      Bool.and_false, Bool.false_eq_true, if_false, hhdr, hiv8, hpn, hbody]
    rw [← hoverwrite, ← hq]
    rfl
  have hlength : (hdr ++ iv ++ q).length = w.length := by
    have hseal : (icvSeal rc4key (text ++ mic)).length = q.length := by
      rw [hqlen, length_icvSeal, List.length_append, hmic]
    simp only [hw, List.length_append, hseal]
  subst hp
  obtain ⟨hchk, hpull⟩ := recvframeChkmic_body (c := softRx c aes) (b := b)
    (f := { g.parsed .tkip w with rxData := hdr ++ iv ++ q }) henc hicv4 rfl
    (by rw [hstart]; exact (congrArg₂ (· + ·) hhdr hiv8).symm) hqlen (hlength.trans_lt hlt) hsta
    hinstalled
  have hmic' : (softRx c aes).seccalctkipmic (rxMicKey b s (parsedAttrib .tkip g.attrib w))
      (hdr ++ iv ++ q) (q.take text.length) (parsedAttrib .tkip g.attrib w).priority =
        michael (rxMicKey b s (parsedAttrib .tkip g.attrib w)) (Xmit.micPseudo hdr
          (UInt8.ofNat (parsedAttrib .tkip g.attrib w).priority) ++ q.take text.length) := by
    rw [List.append_assoc]
    exact seccalctkipmic_append hlen hthree
  rw [← arcfour_icvSeal_iff, hq, eq_seal_iff hqlen (length_michael _ _)]
  simp only [Undone, hdecrypt, hchk]
  refine and_congr beq_iff_eq ?_
  have htail : (∃ tail, (recvframeChkmic (softRx c aes) b
      { g.parsed .tkip w with rxData := hdr ++ iv ++ q }).2.1.rxData.drop
        ((g.parsed .tkip w).attrib.hdrlen + (g.parsed .tkip w).attrib.ivLen) = text ++ tail ∧
          tail.length = (g.parsed .tkip w).attrib.icvLen) ↔ q.take text.length = text := by
    have htake : (q.take (text.length + 4)).take text.length = q.take text.length := by
      rw [List.take_take, Nat.min_eq_left (by omega)]
    rw [← htake, ← exists_tail_iff (n := 4) (by rw [List.length_take, hqlen]; omega), ← hpull]
    rfl
  rw [htail, decide_eq_true_iff,
    show (g.parsed .tkip w).attrib = parsedAttrib .tkip g.attrib w from rfl, hmic']
  exact and_congr_left fun htext => by rw [htext]

theorem headerAad_append {rest : Bytes} {protectedBit : ℕ} (spp spp' : Bool)
    (hlen : 24 ≤ hdr.length) (hqos : subTypeQos hdr → 26 ≤ hdr.length)
    (hthree : getToFrDs hdr ≠ 3) (hamsdu : hdr.u8 24 &&& 0x8f = hdr.u8 24 &&& 0x0f) :
    headerAad protectedBit spp (hdr ++ rest) = headerAad protectedBit spp' hdr := by
  have hfc : frameCtrl (hdr ++ rest) = frameCtrl hdr := Bytes.le16_append (by omega) rest
  have hfrag : getFragNum (hdr ++ rest) = getFragNum hdr :=
    congrArg (· % 16) (Bytes.le16_append (by omega) rest)
  have hds : getToFrDs (hdr ++ rest) = getToFrDs hdr := by
    rw [getToFrDs, getFrDs, getToDs, hfc, getToFrDs, getFrDs, getToDs]
  have htype : getFrameType (hdr ++ rest) = getFrameType hdr := by
    rw [getFrameType, hfc, getFrameType]
  have hsub : subTypeQos (hdr ++ rest) = subTypeQos hdr := by
    rw [subTypeQos, hfc, subTypeQos]
  have haddr : ((hdr ++ rest).drop 4).take 18 = (hdr.drop 4).take 18 := by
    rw [List.drop_append_of_le_length (by omega), List.take_append_of_le_length (by simp; omega)]
  simp only [headerAad, hfc, hfrag, hds, htype, hsub, haddr, hthree, if_false]
  cases hq : subTypeQos hdr
  · simp only [Bool.and_false, Bool.false_eq_true, if_false]
  · rw [Bytes.u8_append (by have := hqos hq; omega)]
    cases spp <;> cases spp' <;>
      simp only [Bool.false_eq_true, if_false, if_true, hamsdu]

theorem gcmpAadNonce_append {rest data : Bytes} {spp spp' : Bool} {a₁ a₂ : MacAddr} {qos : Bool}
    {priority : ℕ} (h : Xmit.HdrReads hdr a₁ a₂ qos priority) (hiv : iv.length = 8) :
    gcmpAadNonce spp (hdr ++ rest) (iv ++ data) = gcmpAadNonce spp' hdr iv := by
  have hlen : 24 ≤ hdr.length := by
    rw [h.length]
    split <;> decide
  have hqos : subTypeQos hdr → 26 ≤ hdr.length := by
    rw [h.isQos, h.length]
    rintro rfl
    decide
  have haddr2 : getAddr2 (hdr ++ rest) = getAddr2 hdr := Bytes.mac_append (by omega) rest
  have hu8 {i : ℕ} (hi : i < 8) : Bytes.u8 (iv ++ data) i = iv.u8 i :=
    Bytes.u8_append (by omega) data
  simp only [gcmpAadNonce, headerAad_append spp spp' hlen hqos h.toFrDs h.amsdu, noncePn,
    haddr2]
  rw [hu8 (by decide), hu8 (by decide), hu8 (by decide), hu8 (by decide), hu8 (by decide),
    hu8 (by decide)]

/-- **A GCMP frame is undone** where the receiver finds the key. -/
theorem undone_gcmp {enc : SecurityType} {spp qos : Bool} {a₁ a₂ : MacAddr} {priority : ℕ}
    {key : Bytes} (henc : enc = .gcmp ∨ enc = .gcmp256) (h : Xmit.HdrReads hdr a₁ a₂ qos priority)
    (hiv : iv.length = 8)
    (hw : w = hdr ++ iv ++ ((aesGcmAe aes key (gcmpAadNonce spp hdr iv).2 text
      (gcmpAadNonce spp hdr iv).1).1 ++ (aesGcmAe aes key (gcmpAadNonce spp hdr iv).2 text
      (gcmpAadNonce spp hdr iv).1).2))
    (hhdr : (parsedAttrib enc g.attrib w).hdrlen = hdr.length)
    (hkey : ∀ key', aeadKey b (parsedAttrib enc g.attrib w) = some key' →
      key'.take (aeadKeyLen enc) = key) :
    Undone (softRx c aes) b (g.parsed enc w) text ↔
      (aeadKey b (parsedAttrib enc g.attrib w)).isSome := by
  have hne : enc ≠ .tkip := by rcases henc with rfl | rfl <;> decide
  have hdecrypt : swDecrypt (softRx c aes) b (g.parsed enc w) =
      rtwAeadDecrypt (softRx c aes) enc b (g.parsed enc w) := by
    rcases henc with rfl | rfl <;> rfl
  have hstart : (hdr ++ iv).length = hdr.length + 8 := by rw [List.length_append, hiv]
  have hgcm : aesGcmAd aes key (gcmpAadNonce spp hdr iv).2
      (aesGcmAe aes key (gcmpAadNonce spp hdr iv).2 text (gcmpAadNonce spp hdr iv).1).1
      (gcmpAadNonce spp hdr iv).1
      (aesGcmAe aes key (gcmpAadNonce spp hdr iv).2 text (gcmpAadNonce spp hdr iv).1).2 =
        some text := aesGcmAd_aesGcmAe _ _ _ _
  have hcryptLen : (aesGcmAe aes key (gcmpAadNonce spp hdr iv).2 text
    (gcmpAadNonce spp hdr iv).1).1.length = text.length := length_aesGcmAe _ _ _ _
  have htagLen : (aesGcmAe aes key (gcmpAadNonce spp hdr iv).2 text
    (gcmpAadNonce spp hdr iv).1).2.length = 16 := length_gcmTag _ _ _ _
  generalize aesGcmAe aes key (gcmpAadNonce spp hdr iv).2 text (gcmpAadNonce spp hdr iv).1 = r
    at hw hgcm hcryptLen htagLen
  have hdata : w.drop hdr.length = iv ++ (r.1 ++ r.2) := by
    rw [hw, List.append_assoc, List.drop_left' rfl]
  cases hfound : aeadKey b (parsedAttrib enc g.attrib w) with
  | none =>
    have hfail : rtwAeadDecrypt (softRx c aes) enc b (g.parsed enc w) =
        (false, g.parsed enc w) := by
      simp only [rtwAeadDecrypt, RecvFrame.parsed, hfound, Option.bind_none]
    rw [undone_iff_of_ne_tkip hne (hdecrypt.trans hfail) rfl]
    simp
  | some key' =>
    have hplain : aeadDecrypt (softRx c aes) enc (b.amsduMode = .spp) (key'.take (aeadKeyLen enc)) w
        (iv ++ (r.1 ++ r.2)) = some text := by
      have hlen : (iv ++ (r.1 ++ r.2)).length = 8 + text.length + 16 := by
        simp only [List.length_append, hiv, hcryptLen, htagLen]
        omega
      have hmic : aeadMicLen enc = 16 := by rcases henc with rfl | rfl <;> rfl
      have hmlen : (iv ++ (r.1 ++ r.2)).length - 8 - 16 = text.length := by omega
      have hcrypt : ((iv ++ (r.1 ++ r.2)).drop 8).take text.length = r.1 := by
        rw [← hiv, List.drop_left' rfl, List.take_left' hcryptLen]
      have htag : (iv ++ (r.1 ++ r.2)).drop (8 + text.length) = r.2 := by
        rw [← List.append_assoc, List.drop_left' (by rw [List.length_append, hiv, hcryptLen])]
      have haad : gcmpAadNonce (b.amsduMode = .spp) w (iv ++ (r.1 ++ r.2)) =
          gcmpAadNonce spp hdr iv := by
        rw [hw, List.append_assoc]
        exact gcmpAadNonce_append h hiv
      rw [hkey key' hfound]
      simp only [aeadDecrypt, hmic, hmlen, hcrypt, htag]
      rw [if_neg (by omega)]
      rcases henc with rfl | rfl
      all_goals
        simp only [haad]
        exact hgcm
    have hok : rtwAeadDecrypt (softRx c aes) enc b (g.parsed enc w) =
        (true, { g.parsed enc w with rxData := hdr ++ iv ++ (text ++ r.2) }) := by
      have hover : w.overwrite (hdr.length + 8) text = hdr ++ iv ++ (text ++ r.2) := by
        rw [hw, ← hstart]
        exact overwrite_part hcryptLen.symm
      simp only [rtwAeadDecrypt, RecvFrame.parsed, hfound, hhdr, hdata, Option.bind_some, hplain,
        hover]
    have hlens : enc.ivLen = 8 ∧ enc.icvLen = 16 := by
      rcases henc with rfl | rfl <;> exact ⟨rfl, rfl⟩
    rw [undone_iff_of_ne_tkip hne (hdecrypt.trans hok) rfl, hhdr, hlens.1, hlens.2, ← hstart]
    refine iff_of_true ⟨rfl, r.2, ?_, htagLen⟩ rfl
    exact List.drop_left' rfl

end Texts

/-! ## Both ends -/

section Ends

open Xmit

/-- **The same keys at both ends.** -/
structure KeysShared (a : Xmit.Adapter) (psta : Xmit.StaInfo) (p : PktAttrib) (b : Adapter) :
    Prop where
  defKey : ∀ i : Fin 4, b.securitypriv.dot11DefKey i = a.securitypriv.dot11DefKey i
  grpKey : ∀ i : Fin 4, b.securitypriv.dot118021XGrpKey i = a.securitypriv.dot118021XGrpKey i
  grpMicKey : ∀ i : Fin 4, b.securitypriv.dot118021XGrprxmickey i =
    a.securitypriv.dot118021XGrptxmickey i
  grpKeyid : b.securitypriv.dot118021XGrpKeyid = a.securitypriv.dot118021XGrpKeyid
  installed : b.securitypriv.binstallGrpkey = true
  sta : ∃ s, Rtl88x2eu.rtwGetStainfo b p.ta = some s ∧ (p.ra.isMcast = false →
    (b.sta s).dot118021xUncstKey = psta.dot118021xUncstKey ∧
      (b.sta s).dot11tkiprxmickey = psta.dot11tkiptxmickey)

/-- The destination and the source of an MSDU. -/
def micAddresses (a : Xmit.Adapter) (p : PktAttrib) : Bytes :=
  p.dst.toBytes ++ if a.fwState = .ap then p.src.toBytes else p.ta.toBytes

def hdrPriority (a : Xmit.Adapter) (p : PktAttrib) : ℕ :=
  match hdrAddresses a p with
  | some (_, _, true) => p.priority % 16
  | _ => 0

def llcMsdu (f : XmitFrame) : Bytes := putSnap f.attrib.etherType ++ f.payload

def tkipGroupSeal (a : Xmit.Adapter) (f : XmitFrame) (id : ℕ) (priority : UInt8) : Bytes :=
  let sec := a.securitypriv
  icvSeal (tkipRc4key (sec.dot118021XGrpKey id) f.attrib.ta (ivToPn .tkip f.attrib.iv))
    (llcMsdu f ++ michael (sec.dot118021XGrptxmickey id)
      (micAddresses a f.attrib ++ [priority, 0, 0, 0] ++ llcMsdu f))

/-- **The condition.** WEP: the streams of the key that was used and of the key that is named are
alike as far as the frame goes. TKIP: the Michael code and the header have one priority; and where
the key of a group is named that was not used, both make the same octets. GCMP: the key of a group
that is named is the one that was used. -/
def Agrees (a : Xmit.Adapter) (f : XmitFrame) : Prop :=
  let p := f.attrib
  let sec := a.securitypriv
  match p.encrypt with
  | .wep40 | .wep104 =>
    keystream (p.iv.take 3 ++ sec.dot11DefKey sec.dot11PrivacyKeyIndex) (8 + p.pktlen) =
      keystream (p.iv.take 3 ++ sec.dot11DefKey (p.keyIdx % 4)) (8 + p.pktlen)
  | .tkip =>
    if p.ra.isMcast ∧ p.keyIdx % 4 ≠ sec.dot118021XGrpKeyid then
      tkipGroupSeal a f sec.dot118021XGrpKeyid (micPriority p) =
        tkipGroupSeal a f (p.keyIdx % 4) (UInt8.ofNat (hdrPriority a p))
    else micPriority p = UInt8.ofNat (hdrPriority a p)
  | _ => p.ra.isMcast → p.keyIdx % 4 = sec.dot118021XGrpKeyid

/-- The ciphers that are undone. -/
def softCipher (enc : SecurityType) : Bool :=
  match enc with
  | .wep40 | .wep104 | .tkip | .gcmp | .gcmp256 => true
  | _ => false

theorem txCipher_of_softCipher {enc : SecurityType} (h : softCipher enc) : txCipher enc := by
  cases enc <;> first | rfl | exact absurd h Bool.false_ne_true

theorem octets_of_length {p : Bytes} {n : ℕ} (h : p.length = n) : octets p n = p := by
  subst h
  refine List.ext_getElem (length_octets _ _) fun i hi hi' => ?_
  simp [octets, Memory.read, Bytes.u8, List.getD, hi']

def namedId (p : PktAttrib) : ℕ := (if p.encrypt = .wep40 ∨ p.encrypt = .wep104 then p.keyIdx
  else ivKeyIdx p) % 4

theorem ivKeyIndex_drawnIv {p : PktAttrib} (val : ℕ) :
    (ivKeyIndex (drawnIv p val) : ℕ) = namedId p := by
  have hkeys (k : ℕ) : (keyIdOctet k).toNat / 64 % 4 = k % 4 ∧
      (0x20 ||| keyIdOctet k).toNat / 64 % 4 = k % 4 := by
    have hk : k % 4 < 4 := Nat.mod_lt _ (by decide)
    simp only [keyIdOctet]
    generalize k % 4 = i at hk
    obtain rfl | rfl | rfl | rfl : i = 0 ∨ i = 1 ∨ i = 2 ∨ i = 3 := by omega
    all_goals exact ⟨rfl, rfl⟩
  simp only [drawnIv, namedId]
  split
  case h_1 henc =>
    rw [if_pos (.inl henc)]
    exact (hkeys p.keyIdx).1
  case h_2 henc =>
    rw [if_pos (.inr henc)]
    exact (hkeys p.keyIdx).1
  case h_3 henc =>
    rw [henc, if_neg (by decide)]
    exact (hkeys (ivKeyIdx p)).2
  case h_4 h40 h104 _ =>
    rw [if_neg (by
      rintro (h | h)
      · exact h40 h
      · exact h104 h)]
    exact (hkeys (ivKeyIdx p)).2

theorem icvSeal_michael_iff {key mickey pre text : Bytes} (hpre : pre.length = 12) {i j : UInt8} :
    icvSeal key (text ++ michael mickey (pre ++ [i, 0, 0, 0] ++ text)) =
        icvSeal key (text ++ michael mickey (pre ++ [j, 0, 0, 0] ++ text)) ↔ i = j := by
  constructor
  · intro h
    exact michael_inj_priority hpre (List.append_cancel_left (icvSeal_injective key h))
  · rintro rfl
    rfl

/-! ## What goes on the air -/

section Air

variable {base : TxCrypto} {rxBase : Crypto} {aes : Bytes → Block → Block} {spp mdata eosp : Bool}
  {a : Xmit.Adapter} {psta : Xmit.StaInfo} {f : XmitFrame} {b : Adapter} {g : RecvFrame}
  {m : Mem} {r : Coalesced} {w hdr : Bytes} {qos : Bool}

structure OnAir (base : TxCrypto) (aes : Bytes → Block → Block) (spp : Bool) (a : Xmit.Adapter)
    (f : XmitFrame) (hdr w : Bytes) (qos : Bool) : Prop where
  reads : HdrReads hdr f.attrib.ra f.attrib.ta qos f.attrib.priority
  pseudo : ∀ priority, micPseudo hdr priority = micAddresses a f.attrib ++ [priority, 0, 0, 0]
  priority : hdrPriority a f.attrib = if qos then f.attrib.priority % 16 else 0
  octets : ∀ body, (softTx base aes spp).encipher f.attrib.encrypt (swKey a f.attrib) f.attrib.ta
      hdr (Xmit.octets f.attrib.iv f.attrib.ivLen)
      (plainBody (softTx base aes spp) (micKey a f.attrib) f.attrib hdr f.payload) = some body →
    w = hdr ++ Xmit.octets f.attrib.iv f.attrib.ivLen ++ body

theorem onAir {addr : MacAddr} {psta' : Xmit.StaInfo} (hout : Outgoing a psta f)
    (hone : OneFragment a f) (halign : f.memStart % 4 = 0) (hsw : f.attrib.bswenc = true)
    (hcipher : softCipher f.attrib.encrypt)
    (h : rtwXmitframeCoalesce (softTx base aes spp) (a.setSta addr psta') m f = some r)
    (hres : r.res = true) :
    ∃ hdr qos, OnAir base aes spp a f hdr
      (Memory.read r.mem f.memStart (wlanPktSize f.attrib)) qos := by
  have htx := txCipher_of_softCipher hcipher
  have hprot : ¬(f.attrib.encrypt = .aes ∨ f.attrib.encrypt = .ccmp256) := by
    rintro (henc | henc) <;> rw [henc] at hcipher <;> exact absurd hcipher Bool.false_ne_true
  have hhdr : DataHdr (a.setSta addr psta') f.attrib :=
    ⟨hout.hdr.subtype, hout.hdr.hdrlen, hout.hdr.qos⟩
  have hone' : OneFragment (a.setSta addr psta') f := hone
  obtain ⟨ds, addresses, qos, seqnum, haddresses, hoctets⟩ :=
    coalesce_octets hout.ready hone' halign hhdr hsw htx hprot h hres
  have haddresses : hdrAddresses a f.attrib = some (ds, addresses, qos) := haddresses
  obtain ⟨hds, -⟩ := hdrAddresses_some haddresses
  have hqos := hout.hdr.qos _ _ _ haddresses
  obtain ⟨a₃, rfl⟩ := hout.addresses _ _ _ haddresses
  refine ⟨_, qos, wlanHdr_reads hds hqos _ _ a₃ seqnum, ?_, ?_, hoctets⟩
  · intro priority
    rw [micPseudo_wlanHdr hds hout.hdr.subtype, micAddresses]
    cases hfw : a.fwState <;> simp only [hdrAddresses, hfw, reduceCtorEq, Option.some.injEq,
      Prod.mk.injEq] at haddresses
    all_goals
      obtain ⟨rfl, heq, -⟩ := haddresses
      obtain ⟨heq, h₃⟩ := List.append_inj' heq rfl
      obtain ⟨h₁, h₂⟩ := List.append_inj' heq rfl
    case station => exact congrArg (· ++ f.attrib.ta.toBytes ++ [priority, 0, 0, 0]) h₃.symm
    case ap => exact congrArg₂ (· ++ · ++ [priority, 0, 0, 0]) h₁.symm h₃.symm
    case adhoc => exact congrArg (· ++ f.attrib.ta.toBytes ++ [priority, 0, 0, 0]) h₁.symm
  · rw [hdrPriority, haddresses]
    cases qos <;> rfl

variable {s : StaId}

theorem length_llcMsdu (hout : Outgoing a psta f) :
    (llcMsdu f).length = 8 + f.attrib.pktlen := by
  rw [llcMsdu, List.length_append, length_putSnap, hout.ready.length_payload]

theorem octets_iv (hout : Outgoing a psta f) (hcipher : softCipher f.attrib.encrypt) :
    octets f.attrib.iv f.attrib.ivLen = f.attrib.iv ∧
      f.attrib.iv.length = f.attrib.encrypt.ivLen := by
  have hlen : f.attrib.iv.length = f.attrib.encrypt.ivLen := by
    rw [hout.iv, drawnIv]
    cases henc : f.attrib.encrypt <;> rw [henc] at hcipher <;>
      first | rfl | exact absurd hcipher Bool.false_ne_true
  refine ⟨octets_of_length ?_, hlen⟩
  rw [hout.ready.ivLen, if_pos (txCipher_of_softCipher hcipher), hlen]

theorem plainBody_of_ne {c : TxCrypto} {key : Bytes} (h : f.attrib.encrypt ≠ .tkip) :
    plainBody c key f.attrib hdr f.payload = llcMsdu f := by
  rw [plainBody, if_neg h, List.append_nil, llcMsdu]

theorem undone_iff_wep (hout : Outgoing a psta f) (hshared : KeysShared a psta f.attrib b)
    (henc : f.attrib.encrypt = .wep40 ∨ f.attrib.encrypt = .wep104)
    (hair : OnAir base aes spp a f hdr w qos) :
    Undone (softRx rxBase aes) b (g.parsed f.attrib.encrypt w) (llcMsdu f) ↔ Agrees a f := by
  have hcipher : softCipher f.attrib.encrypt := by rcases henc with h | h <;> rw [h] <;> rfl
  have hne : f.attrib.encrypt ≠ .tkip := by rcases henc with h | h <;> rw [h] <;> decide
  have hwep : (f.attrib.encrypt = .wep40 || f.attrib.encrypt = .wep104) = true := by
    simpa using henc
  obtain ⟨hoctets, hivLen⟩ := octets_iv hout hcipher
  have hiv4 : f.attrib.iv.length = 4 := by rcases henc with h | h <;> rw [hivLen, h] <;> rfl
  have hw := hair.octets (icvSeal (f.attrib.iv.take 3 ++ swKey a f.attrib) (llcMsdu f)) (by
    rw [hoctets, plainBody_of_ne hne]
    rcases henc with h | h <;> rw [h] <;> rfl)
  rw [hoctets] at hw
  have hparsed : (parsedAttrib f.attrib.encrypt g.attrib w).hdrlen = hdr.length :=
    (parsedAttrib_reads hair.reads hw _ _).1
  have hkey : b.securitypriv.dot11DefKey (ivKeyIndex f.attrib.iv) =
      a.securitypriv.dot11DefKey (f.attrib.keyIdx % 4) := by
    rw [hshared.defKey, hout.iv, ivKeyIndex_drawnIv, namedId, if_pos henc]
  rw [undone_wep henc hw hparsed hiv4, hkey, swKey, if_pos hwep, length_llcMsdu hout, Agrees]
  rcases henc with h | h <;> rw [h]

theorem keyIndex_group {body : Bytes} {p : RxPktAttrib} (hout : Outgoing a psta f)
    (hcipher : softCipher f.attrib.encrypt)
    (hwep : ¬(f.attrib.encrypt = .wep40 ∨ f.attrib.encrypt = .wep104))
    (hw : w = hdr ++ f.attrib.iv ++ body) (hhdr : p.hdrlen = hdr.length)
    (hp : parsedAttrib f.attrib.encrypt g.attrib w = p) (hgroup : f.attrib.ra.isMcast) :
    (p.keyIndex : ℕ) = f.attrib.keyIdx % 4 := by
  subst hp
  have hlen : 4 ≤ f.attrib.iv.length := by
    rw [(octets_iv hout hcipher).2]
    cases henc : f.attrib.encrypt <;> rw [henc] at hcipher <;>
      first | decide | exact absurd hcipher Bool.false_ne_true
  rw [keyIndex_parsed hw hhdr hlen, hout.iv, ivKeyIndex_drawnIv, namedId, if_neg hwep, ivKeyIdx,
    if_pos hgroup]

theorem undone_iff_gcmp (hout : Outgoing a psta f) (hshared : KeysShared a psta f.attrib b)
    (henc : f.attrib.encrypt = .gcmp ∨ f.attrib.encrypt = .gcmp256)
    (hair : OnAir base aes spp a f hdr w qos) :
    Undone (softRx rxBase aes) b (g.parsed f.attrib.encrypt w) (llcMsdu f) ↔ Agrees a f := by
  have hcipher : softCipher f.attrib.encrypt := by rcases henc with h | h <;> rw [h] <;> rfl
  have hne : f.attrib.encrypt ≠ .tkip := by rcases henc with h | h <;> rw [h] <;> decide
  have hwep : ¬(f.attrib.encrypt = .wep40 ∨ f.attrib.encrypt = .wep104) := by
    rcases henc with h | h <;> rw [h] <;> decide
  obtain ⟨hoctets, hivLen⟩ := octets_iv hout hcipher
  have hiv8 : f.attrib.iv.length = 8 := by rcases henc with h | h <;> rw [hivLen, h] <;> rfl
  let sealed := aesGcmAe aes ((swKey a f.attrib).take (aeadKeyLen f.attrib.encrypt))
    (gcmpAadNonce spp hdr f.attrib.iv).2 (llcMsdu f) (gcmpAadNonce spp hdr f.attrib.iv).1
  have hw := hair.octets (sealed.1 ++ sealed.2) (by
    rw [hoctets, plainBody_of_ne hne]
    rcases henc with h | h <;> simp only [sealed, h] <;> rfl)
  rw [hoctets] at hw
  obtain ⟨hhdrlen, hra, hta, -⟩ := parsedAttrib_reads hair.reads hw f.attrib.encrypt g.attrib
  have hid := keyIndex_group hout hcipher hwep hw hhdrlen rfl
  obtain ⟨s, hsta, hkeys⟩ := hshared.sta
  have hfound : aeadKey b (parsedAttrib f.attrib.encrypt g.attrib w) =
      if f.attrib.ra.isMcast then
        if f.attrib.keyIdx % 4 = a.securitypriv.dot118021XGrpKeyid then
          some (a.securitypriv.dot118021XGrpKey a.securitypriv.dot118021XGrpKeyid)
        else none
      else some psta.dot118021xUncstKey := by
    simp only [aeadKey, hta, hsta, hra, hshared.installed, hshared.grpKeyid, Bool.not_true,
      Bool.false_eq_true, if_false]
    cases hgroup : f.attrib.ra.isMcast
    · simp only [Bool.false_eq_true, if_false, (hkeys hgroup).1]
    · simp only [if_true, hshared.grpKey, hid hgroup]
      by_cases hsame : f.attrib.keyIdx % 4 = a.securitypriv.dot118021XGrpKeyid
      · rw [if_neg (not_not_intro hsame.symm), if_pos hsame, hsame]
      · rw [if_pos (Ne.symm hsame), if_neg hsame]
  have hsw : (swKey a f.attrib).take (aeadKeyLen f.attrib.encrypt) =
      (if f.attrib.ra.isMcast then
        a.securitypriv.dot118021XGrpKey a.securitypriv.dot118021XGrpKeyid
      else psta.dot118021xUncstKey).take (aeadKeyLen f.attrib.encrypt) := by
    rw [swKey, if_neg (by simpa using hwep)]
    split
    · rfl
    · rw [hout.uncstKey, keyBytes]
      rcases henc with h | h <;> rw [h] <;> exact List.take_take.trans rfl
  rw [undone_gcmp henc hair.reads hiv8 hw hhdrlen ?_, hfound]
  · rw [Agrees]
    rcases henc with h | h <;> rw [h] <;> dsimp only <;> split_ifs <;> simp_all
  · intro key' hkey'
    rw [hfound] at hkey'
    rw [hsw]
    split_ifs at hkey' ⊢ with hgroup hsame
    · rw [Option.some.inj hkey']
    · rw [Option.some.inj hkey']

theorem undone_iff_tkip (hout : Outgoing a psta f) (hshared : KeysShared a psta f.attrib b)
    (henc : f.attrib.encrypt = .tkip) (hair : OnAir base aes spp a f hdr w qos)
    (hlt : w.length < 2 ^ 32) :
    Undone (softRx rxBase aes) b (g.parsed f.attrib.encrypt w) (llcMsdu f) ↔ Agrees a f := by
  have hcipher : softCipher f.attrib.encrypt := by rw [henc]; rfl
  have hwep : ¬(f.attrib.encrypt = .wep40 ∨ f.attrib.encrypt = .wep104) := by rw [henc]; decide
  obtain ⟨hoctets, hivLen⟩ := octets_iv hout hcipher
  have hiv8 : f.attrib.iv.length = 8 := by rw [hivLen, henc]; rfl
  let code := fun (key : Bytes) (priority : UInt8) =>
    michael key (micAddresses a f.attrib ++ [priority, 0, 0, 0] ++ llcMsdu f)
  have hw := hair.octets (icvSeal (tkipRc4key (swKey a f.attrib) f.attrib.ta
      (ivToPn .tkip f.attrib.iv))
    (llcMsdu f ++ code (micKey a f.attrib) (micPriority f.attrib))) (by
    rw [hoctets, plainBody, if_pos henc, henc, hair.pseudo]
    rfl)
  rw [hoctets] at hw
  obtain ⟨hhdrlen, hra, hta, hpriority⟩ :=
    parsedAttrib_reads hair.reads hw f.attrib.encrypt g.attrib
  rw [← hair.priority] at hpriority
  have hid := keyIndex_group hout hcipher hwep hw hhdrlen rfl
  obtain ⟨s, hsta, hkeys⟩ := hshared.sta
  have hlen : 24 ≤ hdr.length := by
    rw [hair.reads.length]
    split <;> decide
  have hpre : (micAddresses a f.attrib).length = 12 := by
    rw [micAddresses]
    split <;> rfl
  rw [← hta] at hsta
  rw [henc] at hhdrlen hra hta hpriority hid hsta ⊢
  rw [undone_tkip hlen hair.reads.three hiv8 (length_michael _ _) hw hlt rfl hhdrlen hsta
    hshared.installed, hair.pseudo, hpriority, hta, Agrees, henc]
  dsimp only
  have hnotwep : (f.attrib.encrypt = .wep40 || f.attrib.encrypt = .wep104) = false := by
    simpa using hwep
  cases hgroup : f.attrib.ra.isMcast
  case false =>
    obtain ⟨hkey, hmickey⟩ := hkeys hgroup
    have hrc4 : tkipRc4key (swKey a f.attrib) f.attrib.ta (ivToPn .tkip f.attrib.iv) =
        tkipRc4key psta.dot118021xUncstKey f.attrib.ta (ivToPn .tkip f.attrib.iv) := by
      refine tkipRc4key_congr (fun i hi => ?_) _ _
      rw [swKey, hnotwep, hgroup, hout.uncstKey, keyBytes, henc]
      exact u8_take hi
    rw [rxTkipKey, rxMicKey, hra, hgroup, hrc4, micKey, hgroup]
    simp only [Bool.false_eq_true, if_false, false_and, hkey, hmickey, hout.micKey henc]
    exact icvSeal_michael_iff hpre
  case true =>
    have hrx : rxTkipKey b s (parsedAttrib .tkip g.attrib w) =
          a.securitypriv.dot118021XGrpKey (f.attrib.keyIdx % 4) ∧
        rxMicKey b s (parsedAttrib .tkip g.attrib w) =
          a.securitypriv.dot118021XGrptxmickey (f.attrib.keyIdx % 4) := by
      rw [rxTkipKey, rxMicKey, hra, hgroup, if_pos rfl, if_pos rfl, hshared.grpKey,
        hshared.grpMicKey, hid hgroup]
      exact ⟨rfl, rfl⟩
    rw [hrx.1, hrx.2, swKey, hnotwep, micKey, hgroup]
    simp only [Bool.false_eq_true, if_false, if_true, true_and]
    by_cases hsame : f.attrib.keyIdx % 4 = a.securitypriv.dot118021XGrpKeyid
    · rw [if_neg (not_not_intro hsame), hsame]
      exact icvSeal_michael_iff hpre
    · rw [if_pos hsame]
      rfl

end Air

/-- **A frame is sent**: its attributes are made, it is not cut, and it is built and encrypted by
software where it stands. -/
structure Sent (base : TxCrypto) (aes : Bytes → Block → Block) (spp : Bool) (a : Xmit.Adapter)
    (psta : Xmit.StaInfo) (f : XmitFrame) (m : Mem) (r : Coalesced) : Prop where
  attrib : ∃ eapol p q mdata eosp, Resolved a p ∧ updateAttrib a f.pkt eapol p = some (q, psta) ∧
    f.attrib = { doQueueSelect q with mdata := mdata, eosp := eosp }
  aligned : f.bufAddr % 4 = 0
  bswenc : f.attrib.bswenc = true
  cipher : softCipher f.attrib.encrypt
  one : OneFragment a f
  size : wlanPktSize f.attrib < 2 ^ 32
  built : rtwXmitframeCoalesce (softTx base aes spp) (a.setSta (staKey f.attrib.ra) psta) m f =
    some r
  res : r.res = true

def sentOctets (f : XmitFrame) (r : Coalesced) : Bytes :=
  Memory.read r.mem f.memStart (wlanPktSize f.attrib)

section RoundTrip

variable {base : TxCrypto} {rxBase : Crypto} {aes : Bytes → Block → Block} {spp : Bool}
  {a : Xmit.Adapter} {psta : Xmit.StaInfo} {f : XmitFrame} {m : Mem} {r : Coalesced} {b : Adapter}

theorem Sent.outgoing (h : Sent base aes spp a psta f m r) : Outgoing a psta f := by
  obtain ⟨eapol, p, q, mdata, eosp, hap, hattrib, hf⟩ := h.attrib
  have hcipher := h.cipher
  rw [show f.attrib.encrypt = q.encrypt by rw [hf]; exact doQueueSelect_encrypt q] at hcipher
  exact updateAttrib_outgoing hap hattrib (txCipher_of_softCipher hcipher) hf

/-- **The exact condition of the round trip.** -/
theorem undone_iff_agrees (hsent : Sent base aes spp a psta f m r)
    (hshared : KeysShared a psta f.attrib b) (g : RecvFrame) :
    Undone (softRx rxBase aes) b (g.parsed f.attrib.encrypt (sentOctets f r)) (llcMsdu f) ↔
      Agrees a f := by
  have hout := hsent.outgoing
  have halign : f.memStart % 4 = 0 := by
    have := hsent.aligned
    rw [XmitFrame.memStart, hwHdrOffset, txdescSize, packetOffsetSz]
    omega
  obtain ⟨hdr, qos, hair⟩ := onAir hout hsent.one halign hsent.bswenc hsent.cipher hsent.built
    hsent.res
  have hcipher := hsent.cipher
  cases henc : f.attrib.encrypt
  case wep40 => exact henc ▸ undone_iff_wep hout hshared (.inl henc) hair
  case wep104 => exact henc ▸ undone_iff_wep hout hshared (.inr henc) hair
  case tkip =>
    have hlt : (sentOctets f r).length < 2 ^ 32 := by
      rw [sentOctets, Memory.length_read]
      exact hsent.size
    exact henc ▸ undone_iff_tkip hout hshared henc hair hlt
  case gcmp => exact henc ▸ undone_iff_gcmp hout hshared (.inl henc) hair
  case gcmp256 => exact henc ▸ undone_iff_gcmp hout hshared (.inr henc) hair
  all_goals
    rw [henc] at hcipher
    exact absurd hcipher Bool.false_ne_true

end RoundTrip

/-! ## A cell with dynamic WEP keys -/

def dynAddr (i : UInt8) : MacAddr := ⟨0x02, 0, 0, 0, 0, i⟩

def dynAp (second : Bool) : Xmit.Adapter where
  fwState := .ap
  macAddr := dynAddr 1
  bssid := dynAddr 1
  securitypriv := {
    dot11AuthAlgrthm := .dot8021X
    dot11PrivacyKeyIndex := second.toNat
    dot11DefKey := fun i => if i = 1 then [1, 2, 3, 4, 5] else [5, 4, 3, 2, 1]
    swEncrypt := true }
  stations := fun addr => if addr = dynAddr 2 then some { dot118021XPrivacy := .wep40 } else none

def dynSta : Adapter where
  staHash := [0]
  sta := fun _ => { macAddr := dynAddr 1 }
  securitypriv := {
    dot11DefKey := fun i => if i.val = 1 then [1, 2, 3, 4, 5] else [5, 4, 3, 2, 1]
    binstallGrpkey := true }

def dynPkt : Bytes := (dynAddr 2).toBytes ++ (dynAddr 1).toBytes ++ [0x08, 0x00, 0x45]

def dynAttrib : PktAttrib :=
  { ra := dynAddr 2, ta := dynAddr 1, dst := dynAddr 2, src := dynAddr 1 }

theorem dynUpdated_isSome (second : Bool) :
    (updateAttrib (dynAp second) dynPkt .nonEapol dynAttrib).isSome := by
  cases second <;> rfl

def dynUpdated (second : Bool) : PktAttrib × Xmit.StaInfo :=
  (updateAttrib (dynAp second) dynPkt .nonEapol dynAttrib).get (dynUpdated_isSome second)

def dynFrame (second : Bool) : XmitFrame :=
  { attrib := doQueueSelect (dynUpdated second).1, pkt := dynPkt }

def dynBuilt (second : Bool) : Option Coalesced :=
  rtwXmitframeCoalesce (softTx nullCrypto (fun _ x => x) false)
    ((dynAp second).setSta (staKey (dynFrame second).attrib.ra) (dynUpdated second).2)
    (fun _ => 0) (dynFrame second)

theorem dynBuilt_isSome (second : Bool) : (dynBuilt second).isSome :=
  rtwXmitframeCoalesce_isSome (by
    show (15 : ℕ) < 2 ^ 32 - 8
    decide)

theorem dyn_sent (second : Bool) :
    Sent nullCrypto (fun _ x => x) false (dynAp second) (dynUpdated second).2 (dynFrame second)
      (fun _ => 0) ((dynBuilt second).get (dynBuilt_isSome second)) where
  attrib := ⟨.nonEapol, dynAttrib, (dynUpdated second).1, false, false, fun _ => ⟨rfl, rfl⟩,
    (Option.some_get (dynUpdated_isSome second)).symm, by cases second <;> rfl⟩
  aligned := rfl
  bswenc := by cases second <;> rfl
  cipher := by cases second <;> rfl
  one := by cases second <;> decide
  size := by cases second <;> decide
  built := (Option.some_get (dynBuilt_isSome second)).symm
  res := by cases second <;> rfl

theorem dyn_keysShared (second : Bool) :
    KeysShared (dynAp second) (dynUpdated second).2 (dynFrame second).attrib dynSta where
  defKey _ := rfl
  grpKey _ := rfl
  grpMicKey _ := rfl
  grpKeyid := rfl
  installed := rfl
  sta := by cases second <;> exact ⟨0, rfl, fun _ => ⟨rfl, rfl⟩⟩

/-- The key that is named is the first one. -/
theorem undone_dyn : Undone (softRx Defrag.idleCrypto fun _ x => x) dynSta
    (RecvFrame.parsed { id := 0 } (dynFrame false).attrib.encrypt
      (sentOctets (dynFrame false) ((dynBuilt false).get (dynBuilt_isSome false))))
    (llcMsdu (dynFrame false)) :=
  (undone_iff_agrees (dyn_sent false) (dyn_keysShared false) { id := 0 }).mpr rfl

/-- The streams of the two keys begin differently. -/
theorem not_dyn_agrees : ¬ Agrees (dynAp true) (dynFrame true) := by
  intro h
  have hstreams : keystream [1, 0, 0, 1, 2, 3, 4, 5] 9 = keystream [1, 0, 0, 5, 4, 3, 2, 1] 9 := h
  have hheads : (keystream [1, 0, 0, 1, 2, 3, 4, 5] 1).map UInt8.toNat =
      (keystream [1, 0, 0, 5, 4, 3, 2, 1] 1).map UInt8.toNat :=
    congrArg (fun q : Bytes => (q.take 1).map UInt8.toNat) hstreams
  rw [toNat_keystream_one, toNat_keystream_one] at hheads
  revert hheads
  decide +kernel

/-- **The key that is used need not be the key that is named.** -/
theorem not_undone : ∃ (a : Xmit.Adapter) (psta : Xmit.StaInfo) (f : XmitFrame) (m : Mem)
    (r : Coalesced) (b : Adapter), Sent nullCrypto (fun _ x => x) false a psta f m r ∧
      KeysShared a psta f.attrib b ∧ ∀ rxBase (g : RecvFrame), ¬ Undone (softRx rxBase fun _ x => x)
        b (g.parsed f.attrib.encrypt (sentOctets f r)) (llcMsdu f) := by
  refine ⟨dynAp true, (dynUpdated true).2, dynFrame true, fun _ => 0, _, dynSta, dyn_sent true,
    dyn_keysShared true, fun rxBase g hundone => ?_⟩
  have hout := (dyn_sent true).outgoing
  obtain ⟨hdr, qos, hair⟩ := onAir hout (dyn_sent true).one rfl (dyn_sent true).bswenc
    (dyn_sent true).cipher (dyn_sent true).built (dyn_sent true).res
  exact not_dyn_agrees ((undone_iff_wep hout (dyn_keysShared true) (.inl rfl) hair).mp hundone)

end Ends

end Rtl88x2eu
