import Rtl88x2eu.Recv.BipVerify
import Rtl88x2eu.Recv.DefragIntegrity
import Rtl88x2eu.Xmit.MgntXmit

/-!
# Both ends of BIP

A robust management frame to a group leaves `rtw_mgmt_xmitframe_coalesce` with a BIP element, and
`rtw_bip_verify` checks it. The sender appends the element and masks the flags in a copy of the
header; the receiver counts the element back from the end and masks the flags of what arrived.

## Main definitions

* `Reflagged`
* `BipHanded`, `BipReceived`: what is handed to the sender and to the receiver

## Main results

* `rtwBipVerify_of_sent`: what was protected is accepted
* `bip_agrees_and_guards`: both ends agree, and over every sequence of frames replay is refused
-/

namespace Rtl88x2eu

/-! ## Sender and receiver -/

section

variable {aes : Bytes → Block → Block} {init : Bool}

def bipTx (base : Xmit.TxCrypto) (aes : Bytes → Block → Block) (init : Bool) : Xmit.TxCrypto :=
  { base with calculateBipMic := fun gmcs w key data => bipCode aes init gmcs w w.length key data }

/-- The octet of the flags may change on the way, but only in Retry, PwrMgt and MData. -/
def Reflagged (w w' : Bytes) : Prop := ∃ b : UInt8, b &&& 0xc7 = w.u8 1 &&& 0xc7 ∧ w' = w.set 1 b

theorem ofLe16_mask (b₀ b₁ : UInt8) :
    Bytes.ofLe16 ((b₀.toNat + 256 * b₁.toNat) &&& 0xc7ff) = [b₀, b₁ &&& 0xc7] := by
  have h₀ : b₀.toNat < 256 := b₀.toNat_lt
  have hlo : ((b₀.toNat + 256 * b₁.toNat) &&& 0xc7ff) % 2 ^ 8 = b₀.toNat := by
    rw [Nat.and_mod_two_pow]
    have : (b₀.toNat + 256 * b₁.toNat) % 2 ^ 8 = b₀.toNat := by omega
    rw [this]
    exact (Nat.and_two_pow_sub_one_eq_mod b₀.toNat 8).trans (Nat.mod_eq_of_lt h₀)
  have hhi : ((b₀.toNat + 256 * b₁.toNat) &&& 0xc7ff) / 2 ^ 8 = (b₁ &&& 0xc7).toNat := by
    rw [Nat.and_div_two_pow, UInt8.toNat_and]
    have : (b₀.toNat + 256 * b₁.toNat) / 2 ^ 8 = b₁.toNat := by omega
    rw [this]
    rfl
  rw [Bytes.ofLe16]
  congr 1
  · rw [← UInt8.toNat_inj, UInt8.toNat_ofNat']
    exact hlo
  · congr 1
    exact (congrArg UInt8.ofNat hhi).trans UInt8.ofNat_toNat

theorem bipData_of_received {f₁ b : UInt8} (f₀ : UInt8) (rest code : Bytes)
    (hrest : 22 ≤ rest.length) (hb : b &&& 0xc7 = f₁ &&& 0xc7) :
    Bytes.ofLe16 (frameCtrl (f₀ :: b :: (rest ++ code)) &&& 0xc7ff) ++
        (((f₀ :: b :: (rest ++ code)).drop 4).take 18) ++
        ((f₀ :: b :: (rest ++ code)).drop wlanHdrA3Len).take (rest.length + 2 - wlanHdrA3Len) ++
        List.replicate code.length 0 =
      Xmit.bipData (f₀ :: f₁ :: (rest ++ List.replicate code.length 0)) := by
  have hfc : frameCtrl (f₀ :: b :: (rest ++ code)) = f₀.toNat + 256 * b.toNat := rfl
  have hfc' : Bytes.u8 (f₀ :: f₁ :: (rest ++ List.replicate code.length 0)) 0 = f₀ ∧
    Bytes.u8 (f₀ :: f₁ :: (rest ++ List.replicate code.length 0)) 1 = f₁ := ⟨rfl, rfl⟩
  rw [hfc, ofLe16_mask, hb, Xmit.bipData, hfc'.1, hfc'.2]
  have haddrs (f : UInt8) (tail : Bytes) :
      ((f₀ :: f :: (rest ++ tail)).drop 4).take 18 = (rest.drop 2).take 18 := by
    change ((rest ++ tail).drop 2).take 18 = _
    rw [List.drop_append_of_le_length (by omega),
      List.take_append_of_le_length (by rw [List.length_drop]; omega)]
  have hbody (f : UInt8) (tail : Bytes) :
      (f₀ :: f :: (rest ++ tail)).drop wlanHdrA3Len = rest.drop 22 ++ tail := by
    change (rest ++ tail).drop 22 = _
    rw [List.drop_append_of_le_length hrest]
  have hlen : rest.length + 2 - wlanHdrA3Len = (rest.drop 22).length := by
    rw [List.length_drop]
    rfl
  rw [haddrs, haddrs, hbody, hbody, hlen, List.take_left, ← List.append_assoc]

theorem rtwBipVerify_of_valid {crypto : Crypto} {sec : SecurityPriv} {pktLen pn : ℕ} {w : Bytes}
    (micLen : ℕ) (mic : Bytes) (hmicLen : micLen = if sec.dot11wCipher = .bipCmac128 then 8 else 16)
    (hlen : wlanHdrA3Len + micLen ≤ w.length)
    (hmme : Bytes.u8 (w.drop (w.length - (micLen + 10))) 0 = mmeIe)
    (hkeyid : Bytes.le16 (w.drop (w.length - (micLen + 10))) 2 = sec.dot11wBIPKeyid)
    (hpn : Bytes.le16 (w.drop (w.length - (micLen + 10))) 4 +
      65536 * (Bytes.le16 (w.drop (w.length - (micLen + 10))) 6 +
        65536 * Bytes.le16 (w.drop (w.length - (micLen + 10))) 8) = pn)
    (hnew : sec.dot11wBIPrxpn < pn)
    (hmic : crypto.calculateBipMic sec.dot11wCipher w pktLen sec.dot11wBIPKey
      (Bytes.ofLe16 (frameCtrl w &&& 0xc7ff) ++ (w.drop 4).take 18 ++
        (w.drop wlanHdrA3Len).take (w.length - wlanHdrA3Len - micLen) ++
        List.replicate micLen 0) = some mic)
    (hcode : mic.take micLen = w.drop (w.length - micLen)) :
    rtwBipVerify crypto true sec pktLen w = (.success, pn) := by
  have hcases : micLen = 8 ∨ micLen = 16 := by
    rw [hmicLen]
    split_ifs
    · exact .inl rfl
    · exact .inr rfl
  unfold rtwBipVerify
  rw [← hmicLen]
  extract_lets ipn micLen' mme pktIpn body aad
  have hmme' : mme = w.drop (w.length - (micLen + 10)) := by
    rcases hcases with h | h <;> simp only [mme, micLen', h] <;> rfl
  rw [← hmme'] at hmme hkeyid hpn
  have hpn' : pktIpn = pn := hpn
  have hnew' : ¬ pn ≤ ipn := Nat.not_le_of_lt hnew
  have hcode' : crypto.calculateBipMic sec.dot11wCipher w pktLen sec.dot11wBIPKey aad = some mic :=
    hmic
  rw [if_neg (Nat.not_lt_of_le hlen), if_neg (not_not.mpr hmme), if_neg (not_not.mpr hkeyid), hpn',
    if_neg hnew', if_neg (by decide), hcode']
  exact if_pos hcode

theorem toNat_tsc (pn i : ℕ) : (Xmit.tsc pn i).toNat = pn / 256 ^ i % 256 := by
  rw [Xmit.tsc, UInt8.toNat_ofNat']

theorem mmeHead_read (sec : Xmit.SecurityPriv) {pn : ℕ} (code : Bytes)
    (hkeyid : sec.dot11wBIPKeyid < 256) (hpn : pn < 2 ^ 48) :
    Bytes.u8 (Xmit.mmeHead sec pn ++ code) 0 = mmeIe ∧
      Bytes.le16 (Xmit.mmeHead sec pn ++ code) 2 = sec.dot11wBIPKeyid ∧
      Bytes.le16 (Xmit.mmeHead sec pn ++ code) 4 +
        65536 * (Bytes.le16 (Xmit.mmeHead sec pn ++ code) 6 +
          65536 * Bytes.le16 (Xmit.mmeHead sec pn ++ code) 8) = pn := by
  refine ⟨rfl, ?_, ?_⟩
  · change (UInt8.ofNat sec.dot11wBIPKeyid).toNat + 256 * 0 = _
    rw [UInt8.toNat_ofNat']
    omega
  · have hle16 (i : ℕ) (hi : i < 5) : Bytes.le16 (Xmit.mmeHead sec pn ++ code) (4 + i) =
        (Xmit.tsc pn i).toNat + 256 * (Xmit.tsc pn (i + 1)).toNat := by
      obtain rfl | rfl | rfl | rfl | rfl : i = 0 ∨ i = 1 ∨ i = 2 ∨ i = 3 ∨ i = 4 := by omega
      all_goals rfl
    rw [hle16 0 (by omega), hle16 2 (by omega), hle16 4 (by omega)]
    simp only [toNat_tsc]
    omega

theorem octets_of_le {p : Bytes} {n : ℕ} (h : n ≤ p.length) : Xmit.octets p n = p.take n := by
  unfold Xmit.octets
  apply List.ext_getElem
  · rw [Memory.length_read, List.length_take, min_eq_left h]
  · intro i hi hi'
    rw [Memory.length_read] at hi
    rw [Memory.getElem_read, Nat.zero_add, Bytes.u8, List.getD_eq_getElem _ _ (by omega),
      List.getElem_take]

/-- **What was protected is accepted.** -/
theorem rtwBipVerify_of_sent {base : Xmit.TxCrypto} {rbase : Crypto} {sec : Xmit.SecurityPriv}
    {rsec : SecurityPriv} {w mic rx : Bytes} {pn : ℕ} (hlen : 24 ≤ w.length)
    (hkeyid : sec.dot11wBIPKeyid < 256) (hpn : pn < 2 ^ 48)
    (hmic : Xmit.bipMic (bipTx base aes init) sec pn w = some mic)
    (hrx : Reflagged (w ++ Xmit.mmeHead sec pn ++ Xmit.octets mic (Xmit.bipMicLen sec)) rx)
    (hcipher : rsec.dot11wCipher = sec.dot11wCipher)
    (hkey : rsec.dot11wBIPKey = sec.dot11wBIPKey sec.dot11wBIPKeyid)
    (hid : rsec.dot11wBIPKeyid = sec.dot11wBIPKeyid) (hnew : rsec.dot11wBIPrxpn < pn) :
    rtwBipVerify { rbase with calculateBipMic := bipCode aes true } true rsec rx.length rx =
      (.success, pn) := by
  obtain ⟨f₀, f₁, rest, rfl⟩ : ∃ f₀ f₁ rest, w = f₀ :: f₁ :: rest := by
    rcases w with _ | ⟨f₀, _ | ⟨f₁, rest⟩⟩
    · exact absurd hlen (by simp)
    · exact absurd hlen (by simp)
    · exact ⟨f₀, f₁, rest, rfl⟩
  have hrest : 22 ≤ rest.length := by simpa using hlen
  obtain ⟨b, hb, rfl⟩ := hrx
  have hinit := init_of_bipCode hmic
  subst hinit
  have hmicLen := length_bipCode aes true hmic
  -- the frame, taken apart around the octet that may change and around the MME
  obtain ⟨n, hn⟩ : ∃ n, Xmit.bipMicLen sec = n := ⟨_, rfl⟩
  obtain ⟨code, hcode⟩ : ∃ code, Xmit.octets mic n = code := ⟨_, rfl⟩
  have hcases : n = 8 ∨ n = 16 := by
    rw [← hn, Xmit.bipMicLen]
    split_ifs
    · exact .inl rfl
    · exact .inr rfl
  have hcodeLen : code.length = n := by rw [← hcode, Xmit.length_octets]
  have hheadLen := Xmit.length_mmeHead sec pn
  obtain ⟨hmme, hmmeId, hmmePn⟩ := mmeHead_read sec code hkeyid hpn
  generalize hhead : Xmit.mmeHead sec pn = head at *
  have hset : (f₀ :: f₁ :: rest ++ head ++ Xmit.octets mic (Xmit.bipMicLen sec)).set 1 b =
      f₀ :: b :: (rest ++ head ++ code) := by
    rw [hn, hcode]
    rfl
  rw [hset] at *
  have hlenRx : (f₀ :: b :: (rest ++ head ++ code)).length = rest.length + 12 + n := by
    simp [hheadLen, hcodeLen]
    omega
  have hdrop : (f₀ :: b :: (rest ++ head ++ code)).drop
      ((f₀ :: b :: (rest ++ head ++ code)).length - (n + 10)) = head ++ code := by
    have hplace : rest.length + 12 + n - (n + 10) = (f₀ :: b :: rest).length := by
      simp only [List.length_cons]
      omega
    have hsplit : f₀ :: b :: (rest ++ head ++ code) = (f₀ :: b :: rest) ++ (head ++ code) := by simp
    rw [hlenRx, hplace, hsplit, List.drop_left]
  refine rtwBipVerify_of_valid n mic ?_ ?_ ?_ ?_ ?_ hnew ?_ ?_
  · rw [hcipher, ← hn]
    rfl
  · rw [hlenRx]
    have : wlanHdrA3Len = 24 := rfl
    omega
  · rw [hdrop, hmme]
  · rw [hdrop, hmmeId, hid]
  · rw [hdrop, hmmePn]
  · -- the same data under the same key; the flags in question are masked
    have hwhole : f₀ :: f₁ :: rest ++ head ++ List.replicate n 0 =
        f₀ :: f₁ :: (rest ++ head ++ List.replicate code.length 0) := by
      rw [hcodeLen]
      rfl
    have hdata := bipData_of_received f₀ (rest ++ head) code
      (by rw [List.length_append]; omega) hb
    have hcut : (f₀ :: b :: (rest ++ head ++ code)).length - wlanHdrA3Len - n =
        (rest ++ head).length + 2 - wlanHdrA3Len := by
      rw [hlenRx, List.length_append, hheadLen]
      omega
    have hsent : bipCode aes true sec.dot11wCipher
        (f₀ :: f₁ :: (rest ++ head ++ List.replicate code.length 0))
        (f₀ :: f₁ :: (rest ++ head ++ List.replicate code.length 0)).length
        (sec.dot11wBIPKey sec.dot11wBIPKeyid)
        (Xmit.bipData (f₀ :: f₁ :: (rest ++ head ++ List.replicate code.length 0))) = some mic := by
      rw [Xmit.bipMic, Xmit.bipFrame, hhead, hn, hwhole] at hmic
      exact hmic
    rw [hcut, ← hcodeLen, hdata, hcipher, hkey]
    -- the transmitter, and for GMAC the packet number in the MME
    have haddr (f : UInt8) (tail : Bytes) :
        ((f₀ :: f :: (rest ++ head ++ tail)).drop 10).take 6 = (rest.drop 8).take 6 := by
      change ((rest ++ head ++ tail).drop 8).take 6 = _
      rw [List.append_assoc, List.drop_append_of_le_length (by omega),
        List.take_append_of_le_length (by rw [List.length_drop]; omega)]
    have hipn (f : UInt8) (tail : Bytes) (hgmac : sec.dot11wCipher ≠ .bipCmac128) :
        ((f₀ :: f :: (rest ++ head ++ tail)).drop
          ((f₀ :: b :: (rest ++ head ++ code)).length - 22)).take 6 = (head.drop 4).take 6 := by
      have hn16 : n = 16 := by
        rw [← hn, Xmit.bipMicLen, if_neg hgmac]
      have hplace : rest.length + 12 + n - 22 = (f₀ :: f :: rest).length + 4 := by
        simp only [List.length_cons]
        omega
      have hsplit : f₀ :: f :: (rest ++ head ++ tail) = (f₀ :: f :: rest) ++ (head ++ tail) := by
        simp
      rw [hlenRx, hplace, hsplit, ← List.drop_drop, List.drop_left,
        List.drop_append_of_le_length (by omega),
        List.take_append_of_le_length (by rw [List.length_drop]; omega)]
    have hlens : (f₀ :: f₁ :: (rest ++ head ++ List.replicate code.length 0)).length =
        (f₀ :: b :: (rest ++ head ++ code)).length := by simp
    rw [hlens] at hsent
    refine (bipCode_congr ?_ fun hgmac => ?_).trans hsent
    · rw [haddr, haddr]
    · rw [hipn _ _ hgmac, hipn _ _ hgmac]
  · rw [hlenRx]
    have hplace : rest.length + 12 + n - n = (f₀ :: b :: (rest ++ head)).length := by
      simp only [List.length_cons, List.length_append]
      omega
    have hsplit : f₀ :: b :: (rest ++ head ++ code) = (f₀ :: b :: (rest ++ head)) ++ code := rfl
    rw [hplace, hsplit, List.drop_left, ← hcode, octets_of_le (by omega)]

end

section

open Traced

/-- A robust frame to a group is handed over while there is a key, and packet numbers of 48 bits
are left. -/
structure BipHanded (h : Xmit.Handed) : Prop where
  hdr : wlanHdrA3Len ≤ h.pktlen
  cipher : h.adapter.securitypriv.dot11wCipher.isBip = true
  robust : robustMgmt h.kind = true
  group : (getAddr1 h.kind).isMcast = true
  noPrivacy : groupPrivacyAction h.kind = false
  installed : h.adapter.securitypriv.binstallBIPkey = true
  keyid : h.adapter.securitypriv.dot11wBIPKeyid < 6
  pn : h.adapter.securitypriv.dot11wBIPtxpn + 1 < 2 ^ 48

def bipCoalesced (base : Xmit.TxCrypto) (aes : Bytes → Block → Block) (h : Xmit.Handed) :
    Xmit.MgmtCoalesced :=
  Xmit.rtwMgmtXmitframeCoalesce (bipTx base aes true) true h.adapter h.mem 0 h.attrib

structure BipReceived (sec : Xmit.SecurityPriv) (out : Bytes) (x : BipCall) : Prop where
  gmcs : x.gmcs = sec.dot11wCipher
  key : x.key = sec.dot11wBIPKey sec.dot11wBIPKeyid
  keyid : x.keyid = sec.dot11wBIPKeyid
  pktLen : x.pktLen = x.flen
  mem : x.mem = true
  init : x.init = true
  frame : Reflagged out x.octets

/-- **A group frame leaves with a code.** -/
theorem bipCoalesced_leaves (base : Xmit.TxCrypto) (aes : Bytes → Block → Block) {h : Xmit.Handed}
    (hh : BipHanded h) :
    ∃ mic, Xmit.bipMic (bipTx base aes true) h.adapter.securitypriv
        (h.adapter.securitypriv.dot11wBIPtxpn + 1) h.frame = some mic ∧
      Xmit.Leaves h.attrib (bipCoalesced base aes h)
        (h.frame ++ Xmit.mmeHead h.adapter.securitypriv
            (h.adapter.securitypriv.dot11wBIPtxpn + 1) ++
          Xmit.octets mic (Xmit.bipMicLen h.adapter.securitypriv)) := by
  obtain ⟨mic, hmic⟩ : ∃ mic, Xmit.bipMic (bipTx base aes true) h.adapter.securitypriv
      (h.adapter.securitypriv.dot11wBIPtxpn + 1) h.frame = some mic := bipCode_isSome hh.cipher
  refine ⟨mic, hmic, ?_⟩
  have hgroup : bipCoalesced base aes h =
      Xmit.bipProtect (bipTx base aes true) h.adapter h.mem Xmit.txdescOffset h.attrib := by
    rw [bipCoalesced, Xmit.coalesce_of_kind, Xmit.Handed.attrib_ra, if_pos hh.robust,
      if_pos hh.group, hh.noPrivacy, Xmit.groupProtect, Nat.zero_add]
    rfl
  rw [hgroup]
  exact Xmit.bipProtect_leaves rfl hh.hdr rfl hh.installed hh.pn hmic

/-- **Both ends of BIP agree, and replay is refused.** A group frame that is protected is accepted
under the same cipher, key and key id, whatever became of Retry, PwrMgt and MData, by a receiver
that has not seen its packet number yet. And over every sequence of frames, the checks stay inside
their frames, and the packet number moves with accepted frames only, and forward. -/
theorem bip_agrees_and_guards (base : Xmit.TxCrypto) (aes : Bytes → Block → Block) :
    (∀ h : Xmit.Handed, BipHanded h →
      (bipCoalesced base aes h).res = true ∧
        ∀ x, BipReceived h.adapter.securitypriv
            (Memory.read (bipCoalesced base aes h).mem Xmit.txdescOffset
              (bipCoalesced base aes h).attrib.lastTxcmdsz) x →
          ∀ ipn ≤ h.adapter.securitypriv.dot11wBIPtxpn,
            outcome (x.rtwBipVerify aes) ipn =
              some (.success, h.adapter.securitypriv.dot11wBIPtxpn + 1)) ∧
      ∀ xs : List BipCall, (∀ x ∈ xs, x.pktLen = x.flen) → ∀ ipn, Guarded aes ipn xs := by
  refine ⟨fun h hh => ?_, fun xs hlen ipn => guarded_run Defrag.idleCrypto xs hlen ipn⟩
  obtain ⟨mic, hmic, hleaves⟩ := bipCoalesced_leaves base aes hh
  refine ⟨hleaves.res, fun x hx ipn hipn => ?_⟩
  have hlen : 24 ≤ h.frame.length := by
    rw [Xmit.Handed.frame, Memory.length_read]
    exact hh.hdr
  have hkeyid := hh.keyid
  have hframe := hx.frame
  rw [hleaves.out] at hframe
  rw [outcome_rtwBipVerify aes Defrag.idleCrypto hx.pktLen, hx.mem, hx.pktLen, ← x.length_octets]
  have hcrypto : x.crypto aes Defrag.idleCrypto =
      { Defrag.idleCrypto with calculateBipMic := bipCode aes true } := by
    rw [BipCall.crypto, hx.init]
  rw [hcrypto]
  exact congrArg some (rtwBipVerify_of_sent hlen (by omega) hh.pn hmic hframe hx.gmcs hx.key
    hx.keyid (Nat.lt_succ_of_le hipn))

def BipCall.ofBytes (gmcs : SecurityType) (key : Bytes) (keyid : ℕ) (w : Bytes) : BipCall where
  gmcs := gmcs
  pktLen := w.length
  frame i := w.u8 i.toNat
  flen := w.length
  key := key
  keyid := keyid

theorem BipCall.octets_ofBytes (gmcs : SecurityType) (key : Bytes) (keyid : ℕ) (w : Bytes) :
    (ofBytes gmcs key keyid w).octets = w := by
  apply List.ext_getElem
  · exact length_cells _ _
  · intro i hi hw
    rw [← List.getD_eq_getElem _ 0 hi, ← List.getD_eq_getElem _ 0 hw]
    exact u8_octets (x := ofBytes gmcs key keyid w) hw

def groupHanded : Xmit.Handed where
  adapter := { Xmit.ccmpAdapter 2304 with
    securitypriv := { dot11wCipher := .bipGmac256, binstallBIPkey := true, dot11wBIPKeyid := 4 } }
  mem := Memory.write (fun _ => 0) Xmit.txdescOffset
    ([0xc0, 0, 0, 0] ++ MacAddr.bcast.toBytes ++ Xmit.apAddr.toBytes ++ Xmit.apAddr.toBytes ++
      [0, 0, 3, 0])
  pktlen := 26
  keyType := .rightKey

/-- The frame that leaves, over a block cipher that is none. -/
def groupSent : Bytes :=
  Memory.read (bipCoalesced Xmit.nullCrypto (fun _ x => x) groupHanded).mem Xmit.txdescOffset
    (bipCoalesced Xmit.nullCrypto (fun _ x => x) groupHanded).attrib.lastTxcmdsz

theorem reflagged_retry (w : Bytes) : Reflagged w (w.set 1 (w.u8 1 ||| 0x08)) := by
  refine ⟨_, ?_, rfl⟩
  apply UInt8.toBitVec_inj.mp
  rw [UInt8.toBitVec_and, UInt8.toBitVec_or, BitVec.and_or_distrib_right]
  exact BitVec.or_zero

theorem groupHanded_bip : BipHanded groupHanded where
  hdr := by decide
  cipher := rfl
  robust := by decide
  group := by decide
  noPrivacy := by decide
  installed := rfl
  keyid := by decide
  pn := by decide

/-- The frame is accepted in spite of the bit. -/
theorem groupSent_accepted :
    outcome ((BipCall.ofBytes .bipGmac256 [] 4
      (groupSent.set 1 (groupSent.u8 1 ||| 0x08))).rtwBipVerify fun _ x => x) 0 =
      some (.success, 1) :=
  ((bip_agrees_and_guards Xmit.nullCrypto fun _ x => x).1 groupHanded groupHanded_bip).2 _
    { gmcs := rfl, key := rfl, keyid := rfl, pktLen := rfl, mem := rfl, init := rfl,
      frame := by
        rw [BipCall.octets_ofBytes]
        exact reflagged_retry groupSent } 0 le_rfl

end

end Rtl88x2eu
