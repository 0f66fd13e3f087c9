import Rtl88x2eu.Recv.State

/-!
# Decryption and packet numbers

The software decryption of received frames, as far as the driver's own code goes: which key is
taken, what header and payload the cipher sees, and what is written back. The ciphers themselves
(`arc4`, AES-CCM, AES-GCM, the MIC functions) are parameters.

## Main definitions

* `Crypto`
* `ccmpAadNonce`, `gcmpAadNonce`: the additional data and the nonce of a header
* `rtwWepDecrypt`, `rtwTkipDecrypt`, `rtwAesDecrypt`, `rtwGcmpDecrypt`
* `decryptor`
* `ivToPn`, `validPnChk`: packet numbers
* `portctrl`
-/

namespace Rtl88x2eu

/-- The ciphers. -/
structure Crypto where
  /-- `arcfour_init` and `arcfour_encrypt`, on a key and a payload. -/
  arcfour : Bytes → Bytes → Bytes
  /-- `getcrc32`, as the four bytes it is compared as. -/
  getcrc32 : Bytes → Bytes
  /-- `phase1` and `phase2`: the RC4 key of a temporal key, a transmitter and a packet number. -/
  tkipRc4key : Bytes → MacAddr → ℕ → Bytes
  /-- `rtw_seccalctkipmic`, on a key, a header, a payload and a priority. -/
  seccalctkipmic : Bytes → Bytes → Bytes → ℕ → Bytes
  /-- `aes_ccm_ad`: key, nonce, tag length, ciphertext, additional data, tag. -/
  aesCcmAd : Bytes → Bytes → ℕ → Bytes → Bytes → Bytes → Option Bytes
  /-- `aes_gcm_ad`: key, nonce, ciphertext, additional data, tag. -/
  aesGcmAd : Bytes → Bytes → Bytes → Bytes → Bytes → Option Bytes
  /-- `rtw_calculate_bip_mic`: cipher, frame, packet length, key, protected data. -/
  calculateBipMic : SecurityType → Bytes → ℕ → Bytes → Bytes → Option Bytes

/-- `rtw_iv_to_pn`, read as a number. -/
def ivToPn (enc : SecurityType) (iv : Bytes) : ℕ :=
  let high := 65536 * (iv.le16 4 + 65536 * iv.le16 6)
  if enc = .tkip then (iv.u8 2).toNat + 256 * (iv.u8 0).toNat + high
  else if enc.isAead then iv.le16 0 + high
  else 0

theorem u8_take {p : Bytes} {n i : ℕ} (h : i < n) : Bytes.u8 (p.take n) i = p.u8 i := by
  simp [Bytes.u8, List.getD, h]

/-- The packet number is in the first eight octets. -/
theorem ivToPn_take (enc : SecurityType) (iv : Bytes) : ivToPn enc (iv.take 8) = ivToPn enc iv := by
  have hu8 : ∀ i, i < 8 → Bytes.u8 (iv.take 8) i = iv.u8 i := fun i => u8_take
  have hle16 : ∀ i, i + 1 < 8 → Bytes.le16 (iv.take 8) i = iv.le16 i := by
    intro i hi
    rw [Bytes.le16, Bytes.le16, hu8 i (by omega), hu8 (i + 1) hi]
  simp only [ivToPn]
  rw [hu8 2 (by decide), hu8 0 (by decide), hle16 0 (by decide), hle16 4 (by decide),
    hle16 6 (by decide)]

/-- `VALID_PN_CHK`: no packet number yet, or bit 47 of the difference is set. -/
def validPnChk (new old : ℕ) : Bool := old = 0 || ((old : ℤ) - new) / 2 ^ 47 % 2 = 1

def ivKeyIndex (iv : Bytes) : Fin 4 := ⟨(iv.u8 3).toNat / 64 % 4, Nat.mod_lt _ (by decide)⟩

def getEncryAlgo (sec : SecurityPriv) (psta : StaInfo) (bmcst : Bool) : SecurityType :=
  match sec.dot11AuthAlgrthm with
  | .open | .shared | .auto | .wapi => sec.dot11PrivacyAlgrthm
  | .dot8021X => if bmcst then sec.dot118021XGrpPrivacy else psta.dot118021XPrivacy

def headerAad (protectedBit : ℕ) (spp : Bool) (hdr : Bytes) : Bytes :=
  let fc := frameCtrl hdr
  let addr4 := getToFrDs hdr = 3
  let data := getFrameType hdr = .data
  let qos := data && subTypeQos hdr
  let fc := if data then fc &&& 0xff8f else fc
  let fc := if qos then fc &&& 0x7fff else fc
  let fc := (fc &&& 0xc7ff) ||| protectedBit
  let qc := (hdr.u8 (if addr4 then 30 else 24)) &&& (if spp then 0x8f else 0x0f)
  Bytes.ofLe16 fc ++ (hdr.drop 4).take 18 ++ Bytes.ofLe16 (getFragNum hdr) ++
    (if addr4 then (hdr.drop 24).take 6 else []) ++ (if qos then [qc, 0] else [])

/-- The transmitter address and the packet number, most significant octet first. -/
def noncePn (hdr iv : Bytes) : Bytes :=
  (getAddr2 hdr).toBytes ++ [iv.u8 7, iv.u8 6, iv.u8 5, iv.u8 4, iv.u8 1, iv.u8 0]

def ccmpAadNonce (spp : Bool) (hdr iv : Bytes) : Bytes × Bytes :=
  let addr4 := getToFrDs hdr = 3
  let flags : UInt8 :=
    match getFrameType hdr with
    | .data => if subTypeQos hdr then hdr.u8 (if addr4 then 30 else 24) &&& 0x0f else 0
    | .mgt => 0x10
    | _ => 0
  (headerAad 0x4000 spp hdr, flags :: noncePn hdr iv)

/-- `gcmp_aad_nonce`: the Protected bit is left as it is. -/
def gcmpAadNonce (spp : Bool) (hdr iv : Bytes) : Bytes × Bytes :=
  (headerAad 0 spp hdr, noncePn hdr iv)

def aeadMicLen : SecurityType → ℕ
  | .aes => 8
  | _ => 16

def aeadKeyLen : SecurityType → ℕ
  | .ccmp256 | .gcmp256 => 32
  | _ => 16

variable (crypto : Crypto)

/-- `ccmp_decrypt`, `ccmp_256_decrypt` and `gcmp_decrypt`, on the data from the packet number to
the tag. -/
def aeadDecrypt (enc : SecurityType) (spp : Bool) (tk hdr data : Bytes) : Option Bytes :=
  let micLen := aeadMicLen enc
  let mlen := data.length - 8 - micLen
  let crypt := (data.drop 8).take mlen
  let mic := data.drop (8 + mlen)
  if data.length < 8 + micLen then none
  else
    match enc with
    | .aes | .ccmp256 =>
      let (aad, nonce) := ccmpAadNonce spp hdr data
      crypto.aesCcmAd tk nonce micLen crypt aad mic
    | .gcmp | .gcmp256 =>
      let (aad, nonce) := gcmpAadNonce spp hdr data
      crypto.aesGcmAd tk nonce crypt aad mic
    | _ => none

/-! ## The ciphers of the receive path -/

/-- `rtw_wep_decrypt`: the ICV is computed and not compared. -/
def rtwWepDecrypt (a : Adapter) (f : RecvFrame) : RecvFrame :=
  let start := f.attrib.hdrlen + f.attrib.ivLen
  let wepkey := (f.rxData.drop f.attrib.hdrlen).take 3 ++
    a.securitypriv.dot11DefKey f.attrib.keyIndex
  { f with rxData := f.rxData.overwrite start (crypto.arcfour wepkey (f.rxData.drop start)) }

def rtwTkipDecrypt (a : Adapter) (f : RecvFrame) : Bool × RecvFrame :=
  match rtwGetStainfo a f.attrib.ta with
  | none => (false, f)
  | some s =>
    if f.attrib.ra.isMcast && !a.securitypriv.binstallGrpkey then (false, f)
    else
      let prwskey :=
        if f.attrib.ra.isMcast then a.securitypriv.dot118021XGrpKey f.attrib.keyIndex
        else (a.sta s).dot118021xUncstKey
      let start := f.attrib.hdrlen + f.attrib.ivLen
      let pn := ivToPn .tkip (f.rxData.drop f.attrib.hdrlen)
      let payload := crypto.arcfour (crypto.tkipRc4key prwskey f.attrib.ta pn) (f.rxData.drop start)
      let body := payload.length - 4
      (crypto.getcrc32 (payload.take body) == payload.drop body,
        { f with rxData := f.rxData.overwrite start payload })

/-- The key of `rtw_aes_decrypt` and `rtw_gcmp_decrypt`: of the transmitter, or the group key if
it is installed under the key index of the frame. -/
def aeadKey (a : Adapter) (p : RxPktAttrib) : Option Bytes :=
  match rtwGetStainfo a p.ta with
  | none => none
  | some s =>
    if p.ra.isMcast then
      if !a.securitypriv.binstallGrpkey then none
      else if a.securitypriv.dot118021XGrpKeyid ≠ p.keyIndex then none
      else some (a.securitypriv.dot118021XGrpKey p.keyIndex)
    else some (a.sta s).dot118021xUncstKey

/-- The body that `rtw_aes_decrypt` and `rtw_gcmp_decrypt` share: the plaintext goes back in
place, the length stays. -/
def rtwAeadDecrypt (enc : SecurityType) (a : Adapter) (f : RecvFrame) : Bool × RecvFrame :=
  let data := f.rxData.drop f.attrib.hdrlen
  let spp := a.amsduMode = .spp
  match (aeadKey a f.attrib).bind fun key =>
      aeadDecrypt crypto enc spp (key.take (aeadKeyLen enc)) f.rxData data with
  | none => (false, f)
  | some plain => (true, { f with rxData := f.rxData.overwrite (f.attrib.hdrlen + 8) plain })

def rtwAesDecrypt (a : Adapter) (f : RecvFrame) : Bool × RecvFrame :=
  rtwAeadDecrypt crypto (if f.attrib.encrypt = .ccmp256 then .ccmp256 else .aes) a f

def rtwGcmpDecrypt (a : Adapter) (f : RecvFrame) : Bool × RecvFrame :=
  rtwAeadDecrypt crypto (if f.attrib.encrypt = .gcmp256 then .gcmp256 else .gcmp) a f

/-- The switch of `decryptor` on the cipher. -/
def swDecrypt (a : Adapter) (f : RecvFrame) : Bool × RecvFrame :=
  match f.attrib.encrypt with
  | .wep40 | .wep104 => (true, rtwWepDecrypt crypto a f)
  | .tkip => rtwTkipDecrypt crypto a f
  | .aes | .ccmp256 => rtwAesDecrypt crypto a f
  | .gcmp | .gcmp256 => rtwGcmpDecrypt crypto a f
  | _ => (true, f)

def Adapter.setHwDecrypted (a : Adapter) (b : Bool) : Adapter :=
  { a with securitypriv := { a.securitypriv with hwDecrypted := b } }

def RecvFrame.setBdecrypted (f : RecvFrame) : RecvFrame :=
  { f with attrib := { f.attrib with bdecrypted := true } }

def RecvFrame.decrypted (f : RecvFrame) (d : Bytes) (keyIndex : Fin 4) : RecvFrame :=
  { f with rxData := d, attrib := { f.attrib with keyIndex, bdecrypted := true } }

@[simp] theorem decrypted_id (f : RecvFrame) (d : Bytes) (keyIndex : Fin 4) :
    (f.decrypted d keyIndex).id = f.id := rfl

@[simp] theorem decrypted_psta (f : RecvFrame) (d : Bytes) (keyIndex : Fin 4) :
    (f.decrypted d keyIndex).psta = f.psta := rfl

/-- `decryptor`: a frame that fails is freed. -/
def decryptor (a : Adapter) (f : RecvFrame) : Option RecvFrame × Adapter :=
  let iv := f.rxData.drop f.attrib.hdrlen
  let f := if f.attrib.encrypt ≠ .noPrivacy then
      { f with attrib := { f.attrib with keyIndex := ivKeyIndex iv } } else f
  if f.attrib.encrypt ≠ .noPrivacy ∧ !f.attrib.bdecrypted then
    let a := if getFrameType f.rxData = .data then a.setHwDecrypted false else a
    let r := swDecrypt crypto a f
    if r.1 then (some r.2.setBdecrypted, a) else (none, rtwFreeRecvframe a f.id)
  else if f.attrib.bdecrypted ∧ f.attrib.encrypt ≠ .noPrivacy ∧
      (a.securitypriv.busetkipkey ∨ f.attrib.encrypt ≠ .tkip) then
    (some f.setBdecrypted, a.setHwDecrypted true)
  else (some f.setBdecrypted, a)

def ethPEapol : ℕ := 0x888e

def etherType (f : RecvFrame) : ℕ :=
  f.rxData.be16 (f.attrib.hdrlen + f.attrib.ivLen + llcHeaderSize)

/-- `portctrl`: a blocked station gets EAPOL frames through, another frame is freed. -/
def portctrl (a : Adapter) (f : RecvFrame) : Option RecvFrame × Adapter :=
  if a.securitypriv.dot11AuthAlgrthm = .dot8021X then
    match rtwGetStainfo a f.attrib.ta with
    | some s =>
      if (a.sta s).ieee8021xBlocked ∧ etherType f ≠ ethPEapol then
        (none, rtwFreeRecvframe a f.id)
      else (some f, a)
    | none => (some f, a)
  else (some f, a)

end Rtl88x2eu
