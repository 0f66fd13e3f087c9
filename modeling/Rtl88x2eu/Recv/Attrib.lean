import Mathlib.Data.Nat.Bitwise
import Mathlib.Data.List.Basic

/-!
# 802.11 headers and receive attributes

The bytes of a received frame, the header macros of `wifi.h` that read them, and
`struct rx_pkt_attrib`, the per-frame record that the receive descriptor starts and the header
parsers complete.

## Main definitions

* `Bytes`, `Bytes.u8`, `Bytes.le16`: a buffer and its loads; a load past the end reads zero
* `MacAddr`, `SecurityType`
* `getToFrDs`, `getFrameType`, `getPrivacy`, …: the header macros
* `RxDesc`, `rxdesc2attribute`: the descriptor fields and the attributes they start from
* `RxPktAttrib`
-/

namespace Rtl88x2eu

/-- The bytes from `rx_data` up to `rx_tail`. -/
abbrev Bytes := List UInt8

namespace Bytes

/-- One byte of the buffer. -/
def u8 (p : Bytes) (i : ℕ) : UInt8 := p.getD i 0

/-- A little-endian 16-bit load. -/
def le16 (p : Bytes) (i : ℕ) : ℕ := (p.u8 i).toNat + 256 * (p.u8 (i + 1)).toNat

theorem le16_lt (p : Bytes) (i : ℕ) : p.le16 i < 65536 := by
  have hlow := (p.u8 i).toNat_lt
  have hhigh := (p.u8 (i + 1)).toNat_lt
  unfold le16
  omega

/-- A big-endian 16-bit load. -/
def be16 (p : Bytes) (i : ℕ) : ℕ := 256 * (p.u8 i).toNat + (p.u8 (i + 1)).toNat

def ofBe16 (n : ℕ) : Bytes := [UInt8.ofNat (n / 256), UInt8.ofNat n]

def ofLe16 (n : ℕ) : Bytes := [UInt8.ofNat n, UInt8.ofNat (n / 256)]

/-- `memcpy` of `q` to an offset of the buffer. -/
def overwrite (p : Bytes) (i : ℕ) (q : Bytes) : Bytes := p.take i ++ q ++ p.drop (i + q.length)

end Bytes

/-- An address, `isMcast` its group bit. -/
structure MacAddr where
  b0 : UInt8
  b1 : UInt8
  b2 : UInt8
  b3 : UInt8
  b4 : UInt8
  b5 : UInt8
deriving DecidableEq, Repr

namespace MacAddr

def toBytes (a : MacAddr) : Bytes := [a.b0, a.b1, a.b2, a.b3, a.b4, a.b5]

def zero : MacAddr := ⟨0, 0, 0, 0, 0, 0⟩

def bcast : MacAddr := ⟨0xff, 0xff, 0xff, 0xff, 0xff, 0xff⟩

/-- `rtw_rfc1042_header` and `rtw_bridge_tunnel_header`, six bytes like an address. -/
def rfc1042Header : MacAddr := ⟨0xaa, 0xaa, 0x03, 0, 0, 0⟩

def bridgeTunnelHeader : MacAddr := ⟨0xaa, 0xaa, 0x03, 0, 0, 0xf8⟩

/-- `IS_MCAST`: the group bit of the first octet. -/
def isMcast (a : MacAddr) : Bool := a.b0 &&& 1 != 0

end MacAddr

def Bytes.mac (p : Bytes) (i : ℕ) : MacAddr :=
  ⟨p.u8 i, p.u8 (i + 1), p.u8 (i + 2), p.u8 (i + 3), p.u8 (i + 4), p.u8 (i + 5)⟩

namespace Bytes

theorem u8_drop (p : Bytes) (i j : ℕ) : Bytes.u8 (p.drop i) j = p.u8 (i + j) := by
  simp [Bytes.u8]

theorem u8_append {w : Bytes} {i : ℕ} (h : i < w.length) (q : Bytes) :
    Bytes.u8 (w ++ q) i = w.u8 i := by
  simp [u8, List.getD_eq_getElem?_getD, List.getElem?_append_left h]

theorem le16_append {w : Bytes} {i : ℕ} (h : i + 1 < w.length) (q : Bytes) :
    Bytes.le16 (w ++ q) i = w.le16 i := by
  rw [le16, le16, u8_append (by omega), u8_append h]

theorem mac_append {w : Bytes} {i : ℕ} (h : i + 5 < w.length) (q : Bytes) :
    Bytes.mac (w ++ q) i = w.mac i := by
  simp only [mac]
  rw [u8_append (by omega), u8_append (by omega), u8_append (by omega), u8_append (by omega),
    u8_append (by omega), u8_append h]

end Bytes

theorem length_overwrite {p q : Bytes} {i : ℕ} (h : i + q.length ≤ p.length) :
    (p.overwrite i q).length = p.length := by
  simp only [Bytes.overwrite, List.length_append, List.length_take, List.length_drop]
  omega

/-- `enum security_type`, with `ivLen` and `icvLen` of `SET_ICE_IV_LEN`. -/
inductive SecurityType
  | noPrivacy | wep40 | tkip | tkipWtmic | aes | wep104 | sms4 | gcmp
  | bipCmac128 | bipGmac128 | ccmp256 | gcmp256 | bipCmac256 | bipGmac256
deriving DecidableEq, Repr

namespace SecurityType

def ivLen : SecurityType → ℕ
  | wep40 | wep104 => 4
  | tkip | aes | gcmp | gcmp256 | ccmp256 => 8
  | sms4 => 18
  | _ => 0

def icvLen : SecurityType → ℕ
  | wep40 | wep104 | tkip => 4
  | aes => 8
  | gcmp | gcmp256 | ccmp256 | sms4 => 16
  | _ => 0

def isAead : SecurityType → Bool
  | aes | ccmp256 | gcmp | gcmp256 => true
  | _ => false

/-- The ciphers whose header carries a packet number that `rtw_iv_to_pn` decodes. -/
def hasPn (e : SecurityType) : Bool := e = tkip || e.isAead

/-- The three-bit `SECURITY` field of the receive descriptor. -/
def ofDesc : Fin 8 → SecurityType
  | 0 => noPrivacy
  | 1 => wep40
  | 2 => tkip
  | 3 => tkipWtmic
  | 4 => aes
  | 5 => wep104
  | 6 => sms4
  | 7 => gcmp

end SecurityType

inductive AuthAlgrthm
  | open | shared | dot8021X | auto | wapi
deriving DecidableEq, Repr

/-! ## Header macros -/

def frameCtrl (p : Bytes) : ℕ := p.le16 0

def getToDs (p : Bytes) : Bool := (frameCtrl p).testBit 8

def getFrDs (p : Bytes) : Bool := (frameCtrl p).testBit 9

def getToFrDs (p : Bytes) : ℕ := 2 * (getFrDs p).toNat + (getToDs p).toNat

def getMFrag (p : Bytes) : Bool := (frameCtrl p).testBit 10

def getPwrMgt (p : Bytes) : Bool := (frameCtrl p).testBit 12

def getMData (p : Bytes) : Bool := (frameCtrl p).testBit 13

def getPrivacy (p : Bytes) : Bool := (frameCtrl p).testBit 14

def getOrder (p : Bytes) : Bool := (frameCtrl p).testBit 15

/-- `enum WIFI_FRAME_TYPE`, the type bits 2 and 3 of the frame control field. -/
inductive FrameType
  | mgt | ctrl | data | reserved
deriving DecidableEq, Repr

def getFrameType (p : Bytes) : FrameType :=
  match (frameCtrl p).testBit 3, (frameCtrl p).testBit 2 with
  | false, false => .mgt
  | false, true => .ctrl
  | true, false => .data
  | true, true => .reserved

/-- `get_frame_sub_type`: type and subtype, bits 2 to 7. -/
def getFrameSubType (p : Bytes) : ℕ := frameCtrl p % 256 / 4 * 4

def subTypeQos (p : Bytes) : Bool := (frameCtrl p).testBit 7

def subTypeNull (p : Bytes) : Bool := (frameCtrl p).testBit 6

/-- `(subtype & WIFI_QOS_DATA_TYPE) == WIFI_QOS_DATA_TYPE`, bits 7 and 3. -/
def isQosDataType (p : Bytes) : Bool := (frameCtrl p).testBit 7 && (frameCtrl p).testBit 3

def getAddr1 (p : Bytes) : MacAddr := p.mac 4

def getAddr2 (p : Bytes) : MacAddr := p.mac 10

def getAddr3 (p : Bytes) : MacAddr := p.mac 16

def getAddr4 (p : Bytes) : MacAddr := p.mac 24

def getSequence (p : Bytes) : ℕ := p.le16 22 / 16

def getFragNum (p : Bytes) : ℕ := p.le16 22 % 16

/-- `GetPriority` of the QoS control field at an offset. -/
def getPriority (p : Bytes) (qc : ℕ) : ℕ := p.le16 qc % 16

def getAckpolicy (p : Bytes) (qc : ℕ) : ℕ := p.le16 qc / 32 % 4

def getAMsdu (p : Bytes) (qc : ℕ) : Bool := (p.le16 qc).testBit 7

def wlanHdrA3Len : ℕ := 24

def wlanHdrA3QosLen : ℕ := 26

def ethAlen : ℕ := 6

def ethHlen : ℕ := 14

def snapSize : ℕ := 6

def llcHeaderSize : ℕ := 6

def ieee80211FcsLen : ℕ := 4

/-- The offset the fourth address adds to what follows the header. -/
def a4Shift (toFrDs : ℕ) : ℕ := if toFrDs = 3 then ethAlen else 0

-- the key indices, the security types of the descriptor and the TIDs start from zero
instance neZeroFour : NeZero 4 := ⟨by decide⟩
instance neZeroEight : NeZero 8 := ⟨by decide⟩
instance neZeroSixteen : NeZero 16 := ⟨by decide⟩

/-- `struct rx_pkt_attrib`, without the fields that only the PHY reports and the radiotap header
use. -/
structure RxPktAttrib where
  pktLen : ℕ := 0
  hdrlen : ℕ := 0
  toFrDs : ℕ := 0
  amsdu : Bool := false
  qos : Bool := false
  priority : ℕ := 0
  pwSave : Bool := false
  mdata : Bool := false
  seqNum : ℕ := 0
  fragNum : ℕ := 0
  mfrag : Bool := false
  order : Bool := false
  privacy : Bool := false
  bdecrypted : Bool := false
  encrypt : SecurityType := .noPrivacy
  ivLen : ℕ := 0
  icvLen : ℕ := 0
  crcErr : Bool := false
  icvErr : Bool := false
  dst : MacAddr := .zero
  src : MacAddr := .zero
  ta : MacAddr := .zero
  ra : MacAddr := .zero
  bssid : MacAddr := .zero
  ackPolicy : ℕ := 0
  keyIndex : Fin 4 := 0
  dataRate : ℕ := 0
  recvSignalPower : ℤ := 0
deriving DecidableEq, Repr

/-- The fields of the receive descriptor that `rtl8822e_rxdesc2attribute` copies for a normal
packet. -/
structure RxDesc where
  pktLen : ℕ := 0
  crc32 : Bool := false
  icvErr : Bool := false
  security : Fin 8 := 0
  qos : Bool := false
  swdec : Bool := false
  tid : Fin 16 := 0
  amsdu : Bool := false
  md : Bool := false
  mf : Bool := false
  seq : Fin 4096 := 0
  frag : Fin 16 := 0
  rxRate : Fin 128 := 0
deriving DecidableEq, Repr

instance : Inhabited RxDesc := ⟨{}⟩

/-- `rtl8822e_rxdesc2attribute`: everything is zeroed, then the descriptor is copied. -/
def rxdesc2attribute (desc : RxDesc) : RxPktAttrib :=
  { pktLen := desc.pktLen
    crcErr := desc.crc32
    icvErr := desc.icvErr
    encrypt := SecurityType.ofDesc desc.security
    qos := desc.qos
    bdecrypted := !desc.swdec
    priority := desc.tid
    amsdu := desc.amsdu
    mdata := desc.md
    mfrag := desc.mf
    seqNum := desc.seq
    fragNum := desc.frag
    dataRate := desc.rxRate }

/-- The sequence control value that the duplicate caches compare. -/
def RxPktAttrib.seqCtrl (p : RxPktAttrib) : ℕ := p.seqNum % 4096 * 16 + p.fragNum % 16

end Rtl88x2eu
