import Rtl88x2eu.Lib.PresenceMap
import Rtl88x2eu.Xmit.Radiotap

/-!
# The radiotap header of received frames

In monitor mode every received frame goes up behind a radiotap header that `rtw_fill_radiotap_hdr`
makes from the receive attributes. The present words stand first; the fields follow in the order
of their bits, and where there are several antennas a block for each of them.

## Main definitions

* `MonAttrib`, `OperChan`: the attributes and the channel that the header tells
* `Hdr`, `Hdr.field`, `Hdr.antenna`: the header while it is written
* `rtwFillRadiotapHdr`, `headerFields`, `toldFields`, `WellFormed`, `ValuesOk`

## Main results

* `Hdr.fields_fields`, `antennas_eq`: the writer puts fields in memory as the format has them
* `mainFields_eq_told_iff`: the values are right exactly under `ValuesOk`
* `rtwFillRadiotapHdr_wellFormed_iff`: the header is well formed exactly with one antenna at most
  and the right values
-/

namespace Rtl88x2eu.MonitorRx

open PresenceMap Xmit

/-- `snif_info` of `struct moinfo`, without the fields that no header tells. -/
structure SnifInfo where
  sgi : Bool := false
  ldpc : Bool := false
  stbc : Fin 4 := 0
  ofdmBw : Fin 4 := 0
  vhtGroupId : Fin 4 := 0
  vhtNstsAid : ℕ := 0
  vhtTxopNotAllow : Bool := false
  vhtNsymDis : Bool := false
  vhtLdpcExtra : Bool := false
  vhtBeamformed : Bool := false

/-- The fields of `struct rx_pkt_attrib` that the header tells. Signed octets are given as they
stand in memory. -/
structure MonAttrib where
  moif : SnifInfo := {}
  encrypt : UInt8 := 0
  mfrag : Bool := false
  crcErr : Bool := false
  dataRate : UInt8 := 0
  bw : UInt8 := 0
  stbc : UInt8 := 0
  ldpc : UInt8 := 0
  sgi : UInt8 := 0
  ampdu : Bool := false
  ppduCnt : UInt8 := 0
  ampduEof : Bool := false
  recvSignalPower : UInt8 := 0
  /-- `rx_pwr`, `rx_snr`, `rx_mimo_signal_quality`: the arrays have four elements, and memory goes
  on behind them. -/
  rxPwr : ℕ → UInt8 := fun _ => 0
  rxSnr : ℕ → UInt8 := fun _ => 0
  rxMimoSignalQuality : ℕ → UInt8 := fun _ => 0

/-- What `rtw_get_oper_ch`, `rtw_get_oper_bw` and `current_band_type` answer. -/
structure OperChan where
  operCh : UInt8 := 1
  operBw : UInt8 := 0
  band5g : Bool := false

/-- `enum rf_type`, its valid values by their numbers of transmit and receive paths. -/
structure RfType where
  tx : Fin 4
  rx : Fin 4

def rfTypeToRfRxCnt (rfType : Option RfType) : ℕ := rfType.elim 0 fun t => t.rx + 1

/-- The static variables of the A-MPDU field. -/
structure AmpduRef where
  refNum : ℕ := 0x10000000
  ppduCnt : UInt8 := 0

def AmpduRef.next (r : AmpduRef) (a : MonAttrib) : AmpduRef :=
  if a.ppduCnt = r.ppduCnt then r else ⟨(r.refNum + 1) % 2 ^ 32, a.ppduCnt⟩

/-! ## Fields -/

def flagBit (c : Bool) (v : UInt8) : UInt8 := if c then v else 0

def radiotapFillFlags (a : MonAttrib) : UInt8 :=
  flagBit (a.encrypt = 1 || a.encrypt = 5) 0x04 ||| flagBit a.mfrag 0x08 ||| 0x10 |||
    flagBit a.crcErr 0x40 ||| flagBit (a.moif.sgi || a.sgi != 0) 0x80

/-- `hw_rate_to_m_rate`, for the rates up to `DESC_RATE54M`. -/
def hwRateToMRate (rate : UInt8) : UInt8 :=
  [0x02, 0x04, 0x0B, 0x16, 0x0C, 0x12, 0x18, 0x24, 0x30, 0x48, 0x60, 0x6C].getD rate.toNat 0x02

def chan2freq (ch : UInt8) : ℕ := if ch < 14 then 2407 + 5 * ch.toNat else 5000 + 5 * ch.toNat

def channelFlags (c : OperChan) (a : MonAttrib) : ℕ :=
  (if c.band5g then 0x0100 else 0x0080) + (if a.dataRate ≤ 0x03 then 0x0020 else 0x0040) +
    (if c.operBw = 6 then 0x4000 else 0) + (if c.operBw = 5 then 0x8000 else 0)

def isMcsRate (rate : UInt8) : Bool := 0x0c ≤ rate ∧ rate ≤ 0x2B

def isVhtRate (rate : UInt8) : Bool := 0x2C ≤ rate ∧ rate ≤ 0x53

/-- A guard interval, from the PHY status or the attributes. -/
def sgiBit (a : MonAttrib) : UInt8 := if a.moif.sgi then 0x04 else (a.sgi &&& 0x01) <<< 2

def mcsField (a : MonAttrib) : Bytes :=
  [0x01 ||| 0x04 ||| 0x10 ||| 0x20 ||| 0x02,
    flagBit (a.moif.ofdmBw != 0) 1 ||| flagBit (a.bw = 1) 1 ||| sgiBit a |||
      (if a.moif.ldpc then (0x10 : UInt8) else (a.ldpc &&& 0x01) <<< 4) |||
      (if a.moif.stbc ≠ 0 then UInt8.ofNat a.moif.stbc <<< 5 else (a.stbc &&& 0x03) <<< 5),
    a.dataRate - 0x0c]

def ampduField (r : AmpduRef) (a : MonAttrib) : Bytes :=
  ofLe32 r.refNum ++ Bytes.ofLe16 (if a.ampduEof then 0x0080 + 0x0040 else 0) ++ [0, 0]

def vhtBandwidth (a : MonAttrib) : UInt8 :=
  match if a.moif.ofdmBw ≠ 0 then UInt8.ofNat a.moif.ofdmBw else a.bw with
  | 1 => 1
  | 2 => 4
  | 3 => 11
  | _ => 0

def vhtFlags (a : MonAttrib) : UInt8 :=
  (if a.moif.stbc ≠ 0 then 0x01 else a.stbc &&& 0x01) ||| flagBit a.moif.vhtTxopNotAllow 0x02 |||
    sgiBit a ||| flagBit a.moif.vhtNsymDis 0x08 |||
    (if a.moif.vhtLdpcExtra then (0x10 : UInt8) else (a.ldpc &&& 0x01) <<< 4) |||
    flagBit a.moif.vhtBeamformed 0x20

def vhtField (a : MonAttrib) : Bytes :=
  Bytes.ofLe16 0x01ff ++
    [vhtFlags a, vhtBandwidth a,
      ((a.dataRate - 0x2C) % 10) <<< 4 ||| ((a.dataRate - 0x2C) / 10 + 1), 0, 0, 0,
      flagBit a.moif.ldpc 0x01, UInt8.ofNat a.moif.vhtGroupId] ++
    Bytes.ofLe16 a.moif.vhtNstsAid

/-! ## The writer -/

/-- The header while it is written: `it_present`, and the octets behind it. -/
structure Hdr where
  itPresent : ℕ
  buf : Bytes

namespace Hdr

def rtLen (h : Hdr) : ℕ := 8 + h.buf.length

/-- Octets at their alignment. -/
def write (h : Hdr) (align : ℕ) (data : Bytes) : Hdr :=
  { h with buf := h.buf ++ (padding align h.rtLen ++ data) }

def field (h : Hdr) (idx align : ℕ) (data : Bytes) : Hdr :=
  { h.write align data with itPresent := h.itPresent ||| 2 ^ idx }

def fieldIf (h : Hdr) (p : Bool) (idx align : ℕ) (data : Bytes) : Hdr :=
  if p then h.field idx align data else h

/-- The bits of signal, noise, quality and antenna. -/
def antWord : ℕ := 2 ^ 5 + 2 ^ 6 + 2 ^ 7 + 2 ^ 11

def start (rxCnt : ℕ) : Hdr :=
  if 1 < rxCnt then
    ⟨2 ^ 29 + 2 ^ 31,
      ((List.replicate (rxCnt - 1) (antWord + 2 ^ 29 + 2 ^ 31)) ++ [antWord]).flatMap ofLe32⟩
  else ⟨0, []⟩

def antenna (a : MonAttrib) (h : Hdr) (i : ℕ) : Hdr :=
  let h := h.write 1 [a.rxPwr i]
  let h := h.write 1 [a.rxPwr i - a.rxSnr i]
  let h := h.write 2 [a.rxMimoSignalQuality i, 0]
  h.write 1 [UInt8.ofNat i]

def bytes (h : Hdr) : Bytes := [0, 0] ++ Bytes.ofLe16 h.rtLen ++ ofLe32 h.itPresent ++ h.buf

end Hdr

/-- `rtw_fill_radiotap_hdr`, given the room before the frame: the octets it pushes, if it does. -/
def rtwFillRadiotapHdr (rfType : Option RfType) (r : AmpduRef) (c : OperChan) (a : MonAttrib)
    (headroom : ℕ) : Option Bytes × AmpduRef :=
  let rxCnt := rfTypeToRfRxCnt rfType
  let h := Hdr.start rxCnt
  let h := h.field 1 1 [radiotapFillFlags a]
  let h := h.fieldIf (a.dataRate ≤ 0x0b) 2 1 [hwRateToMRate a.dataRate]
  let h := h.field 3 2 (Bytes.ofLe16 (chan2freq c.operCh) ++ Bytes.ofLe16 (channelFlags c a))
  let h := h.field 5 1 [a.recvSignalPower]
  let h := h.fieldIf (isMcsRate a.dataRate) 19 1 (mcsField a)
  let r := if a.ampdu then r.next a else r
  let h := h.fieldIf a.ampdu 20 4 (ampduField r a)
  let h := h.fieldIf (isVhtRate a.dataRate) 21 2 (vhtField a)
  -- the loop runs up to `rx_cnt` and includes it
  let h := if 1 < rxCnt then (List.range (rxCnt + 1)).foldl (Hdr.antenna a) h else h
  (if headroom < h.rtLen then none else some h.bytes, r)

def mainFields (r : AmpduRef) (c : OperChan) (a : MonAttrib) : List Field :=
  [⟨1, [radiotapFillFlags a]⟩] ++
    (if a.dataRate ≤ 0x0b then [⟨2, [hwRateToMRate a.dataRate]⟩] else []) ++
    [⟨3, Bytes.ofLe16 (chan2freq c.operCh) ++ Bytes.ofLe16 (channelFlags c a)⟩] ++
    [⟨5, [a.recvSignalPower]⟩] ++
    (if isMcsRate a.dataRate then [⟨19, mcsField a⟩] else []) ++
    (if a.ampdu then [⟨20, ampduField (r.next a) a⟩] else []) ++
    (if isVhtRate a.dataRate then [⟨21, vhtField a⟩] else [])

def antennaFields (a : MonAttrib) (i : ℕ) : List Field :=
  [⟨5, [a.rxPwr i]⟩, ⟨6, [a.rxPwr i - a.rxSnr i]⟩, ⟨7, [a.rxMimoSignalQuality i, 0]⟩,
    ⟨11, [UInt8.ofNat i]⟩]

/-- The fields that it writes. -/
def headerFields (rxCnt : ℕ) (r : AmpduRef) (c : OperChan) (a : MonAttrib) : List (List Field) :=
  mainFields r c a :: if 1 < rxCnt then (List.range rxCnt).map (antennaFields a) else []

/-! ## What there is to tell -/

/-- An octet or a word with these bits. -/
def bitsOf (bits : List (ℕ × Bool)) : ℕ := (bits.map fun p => if p.2 then 2 ^ p.1 else 0).sum

/-- The frequency of a channel, in MHz. -/
def toldFreq (c : OperChan) : ℕ :=
  if c.band5g then 5000 + 5 * c.operCh.toNat
  else if c.operCh = 14 then 2484
  else 2407 + 5 * c.operCh.toNat

/-- CCK, OFDM, 2 GHz, 5 GHz, half and quarter rate. -/
def toldChannelFlags (c : OperChan) (a : MonAttrib) : ℕ :=
  bitsOf [(5, a.dataRate < 4), (6, 4 ≤ a.dataRate), (7, !c.band5g), (8, c.band5g),
    (14, c.operBw = 6), (15, c.operBw = 5)]

/-- The rates up to 54 Mbit/s, in units of 500 kbit/s. -/
def toldRate (rate : UInt8) : UInt8 :=
  [2, 4, 11, 22, 12, 18, 24, 36, 48, 72, 96, 108].getD rate.toNat 0

/-- The PHY status or the descriptor says so. -/
def shortGi (a : MonAttrib) : Bool := a.moif.sgi || a.sgi % 2 = 1

def ldpcCoded (a : MonAttrib) : Bool := a.moif.ldpc || a.ldpc % 2 = 1

/-- The streams of space-time block coding, and the width of the channel: those of the PHY status
where it has some. -/
def stbcStreams (a : MonAttrib) : ℕ := if a.moif.stbc ≠ 0 then a.moif.stbc else a.stbc.toNat % 4

def frameWidth (a : MonAttrib) : ℕ := if a.moif.ofdmBw ≠ 0 then a.moif.ofdmBw else a.bw.toNat

/-- WEP, fragment, FCS at the end, wrong FCS, short guard interval. -/
def toldFlags (a : MonAttrib) : UInt8 :=
  .ofNat (bitsOf [(2, a.encrypt = 1 || a.encrypt = 5), (3, a.mfrag), (4, true), (6, a.crcErr),
    (7, shortGi a)])

/-- Bandwidth, index, guard interval, coding and streams are known; 40 MHz, short guard interval,
LDPC and the streams; the index. -/
def toldMcs (a : MonAttrib) : Bytes :=
  [.ofNat (bitsOf [(0, true), (1, true), (2, true), (4, true), (5, true)]),
    .ofNat (bitsOf [(0, frameWidth a = 1), (2, shortGi a), (4, ldpcCoded a)] + 32 * stbcStreams a),
    .ofNat (a.dataRate.toNat - 12)]

/-- The octet of a width of 20, 40, 80 or 160 MHz. -/
def toldBandwidth (width : ℕ) : UInt8 := [0, 1, 4, 11].getD width 0

/-- Nine things are known: the flags, the width, the index and the streams of the only user, whether
LDPC is its coding, the group and the partial AID. -/
def toldVht (a : MonAttrib) : Bytes :=
  Bytes.ofLe16 (2 ^ 9 - 1) ++
    [.ofNat (bitsOf [(0, stbcStreams a ≠ 0), (1, a.moif.vhtTxopNotAllow), (2, shortGi a),
        (3, a.moif.vhtNsymDis), (4, a.moif.vhtLdpcExtra), (5, a.moif.vhtBeamformed)]),
      toldBandwidth (frameWidth a),
      .ofNat (16 * ((a.dataRate.toNat - 44) % 10) + ((a.dataRate.toNat - 44) / 10 + 1)), 0, 0, 0,
      .ofNat (bitsOf [(0, ldpcCoded a)]), .ofNat a.moif.vhtGroupId] ++
    Bytes.ofLe16 a.moif.vhtNstsAid

/-- The number of the A-MPDU, and whether its end is known. -/
def toldAmpdu (r : AmpduRef) (a : MonAttrib) : Bytes :=
  ofLe32 r.refNum ++ Bytes.ofLe16 (bitsOf [(6, a.ampduEof), (7, a.ampduEof)]) ++ [0, 0]

def toldMain (r : AmpduRef) (c : OperChan) (a : MonAttrib) : List Field :=
  [⟨1, [toldFlags a]⟩] ++
    (if a.dataRate ≤ 0x0b then [⟨2, [toldRate a.dataRate]⟩] else []) ++
    [⟨3, Bytes.ofLe16 (toldFreq c) ++ Bytes.ofLe16 (toldChannelFlags c a)⟩] ++
    [⟨5, [a.recvSignalPower]⟩] ++
    (if isMcsRate a.dataRate then [⟨19, toldMcs a⟩] else []) ++
    (if a.ampdu then [⟨20, toldAmpdu (r.next a) a⟩] else []) ++
    (if isVhtRate a.dataRate then [⟨21, toldVht a⟩] else [])

/-- **What the header is to tell**: the main fields, and a block for each of several antennas. -/
def toldFields (rxCnt : ℕ) (r : AmpduRef) (c : OperChan) (a : MonAttrib) : List (List Field) :=
  toldMain r c a :: if 1 < rxCnt then (List.range rxCnt).map (antennaFields a) else []

/-- **The attributes that the writer puts right**: a channel below 14 in the 2.4 GHz band and one
from 14 on in the other; a descriptor's guard interval of one bit; for an HT frame no more than
40 MHz from the PHY status; for a VHT frame LDPC from the PHY status, and no two streams from the
descriptor. -/
structure ValuesOk (c : OperChan) (a : MonAttrib) : Prop where
  channel : c.band5g = (14 ≤ c.operCh : Bool)
  guardInterval : a.moif.sgi ∨ a.sgi = 0 ∨ a.sgi % 2 = 1
  width : isMcsRate a.dataRate → a.moif.ofdmBw < 2
  coding : isVhtRate a.dataRate → a.ldpc % 2 = 0 ∨ a.moif.vhtLdpcExtra ∧ a.moif.ldpc
  streams : isVhtRate a.dataRate → a.moif.stbc ≠ 0 ∨ a.stbc % 4 ≠ 2

def radiotapLayout : Layout := fun i => (rtapNamespaceSizes[i]?).filter fun p => 0 < p.2

def decodeHeader (hdr : Bytes) : Option (List (List Field) × ℕ) :=
  if hdr.length < 8 ∨ hdr.u8 0 ≠ 0 ∨ hdr.length < hdr.le16 2 then none
  else
    (presentWords (hdr.drop 4)).bind fun ws =>
      decodeWords radiotapLayout (hdr.take (hdr.le16 2)) 0 (4 + 4 * ws.length) ws

/-- The header tells the fields, and they take all of its `it_len` octets. -/
def WellFormed (hdr : Bytes) (fss : List (List Field)) : Prop :=
  hdr.le16 2 = hdr.length ∧ decodeHeader hdr = some (fss, hdr.length)

/-! ## The values -/

section Values

variable {r : AmpduRef} {c : OperChan} {a : MonAttrib}

theorem forall_octet {P : UInt8 → Prop} (h : ∀ n < 256, P (.ofNat n)) (x : UInt8) : P x := by
  have hx := h x.toNat x.toNat_lt
  rwa [UInt8.ofNat_toNat] at hx

theorem sgiBit_eq (a : MonAttrib) : sgiBit a = flagBit (shortGi a) 4 := by
  have hbit : ∀ x : UInt8, (x &&& 1) <<< 2 = flagBit (x % 2 = 1) 4 :=
    forall_octet (by decide +kernel)
  unfold sgiBit shortGi
  cases a.moif.sgi
  · exact hbit a.sgi
  · rfl

theorem flags_eq_told_iff :
    radiotapFillFlags a = toldFlags a ↔ (a.moif.sgi ∨ a.sgi = 0 ∨ a.sgi % 2 = 1) := by
  have hbits : ∀ wep frag bad sgi sgi' : Bool,
      flagBit wep 0x04 ||| flagBit frag 0x08 ||| 0x10 ||| flagBit bad 0x40 ||| flagBit sgi 0x80 =
        .ofNat (bitsOf [(2, wep), (3, frag), (4, true), (6, bad), (7, sgi')]) ↔ sgi = sgi' := by
    decide
  refine (hbits _ _ _ _ _).trans ?_
  have hodd : ∀ x : UInt8, (x != 0) = (x % 2 = 1 : Bool) ↔ x = 0 ∨ x % 2 = 1 :=
    forall_octet (by decide +kernel)
  unfold shortGi
  cases a.moif.sgi
  · simpa using hodd a.sgi
  · simp

theorem ofLe16_inj {m n : ℕ} (hm : m < 65536) (hn : n < 65536) :
    Bytes.ofLe16 m = Bytes.ofLe16 n ↔ m = n := by
  refine ⟨fun h => ?_, fun h => h ▸ rfl⟩
  simp only [Bytes.ofLe16, List.cons.injEq, and_true] at h
  have hlow := congrArg UInt8.toNat h.1
  have hhigh := congrArg UInt8.toNat h.2
  rw [UInt8.toNat_ofNat', UInt8.toNat_ofNat'] at hlow hhigh
  omega

theorem channel_eq_told_iff :
    Bytes.ofLe16 (chan2freq c.operCh) ++ Bytes.ofLe16 (channelFlags c a) =
      Bytes.ofLe16 (toldFreq c) ++ Bytes.ofLe16 (toldChannelFlags c a) ↔
        c.band5g = (14 ≤ c.operCh : Bool) := by
  have hflags : channelFlags c a = toldChannelFlags c a := by
    have hcck : (a.dataRate ≤ 3) = (a.dataRate < 4) := by
      rw [UInt8.le_iff_toNat_le, UInt8.lt_iff_toNat_lt]
      exact propext Nat.lt_succ_iff.symm
    have hbits : ∀ band cck half quarter : Bool,
        (if band then 0x0100 else 0x0080) + (if cck then 0x0020 else 0x0040) +
          (if half then 0x4000 else 0) + (if quarter then 0x8000 else 0) =
        bitsOf [(5, cck), (6, !cck), (7, !band), (8, band), (14, half), (15, quarter)] := by
      decide
    have hofdm : (4 ≤ a.dataRate : Bool) = !(a.dataRate < 4 : Bool) := by
      simp only [← decide_not, UInt8.not_lt]
    have hsum := hbits c.band5g (a.dataRate < 4) (c.operBw = 6) (c.operBw = 5)
    simp only [decide_eq_true_eq] at hsum
    unfold channelFlags toldChannelFlags
    simp only [hcck, hofdm, hsum]
  have hch := c.operCh.toNat_lt
  have hlt : c.operCh < 14 ↔ c.operCh.toNat < 14 := UInt8.lt_iff_toNat_lt
  have heq : c.operCh = 14 ↔ c.operCh.toNat = 14 := UInt8.toNat_inj.symm
  have hle : (14 ≤ c.operCh) ↔ ¬c.operCh.toNat < 14 := UInt8.le_iff_toNat_le.trans not_lt.symm
  rw [hflags, List.append_left_inj, ofLe16_inj]
  · unfold chan2freq toldFreq
    cases c.band5g <;> simp only [hlt, heq, hle, Bool.false_eq_true, if_false, if_true] <;>
      by_cases hsmall : c.operCh.toNat < 14 <;> simp only [hsmall] <;> split_ifs <;> simp <;> omega
  · unfold chan2freq
    split_ifs <;> omega
  · unfold toldFreq
    split_ifs <;> omega

theorem rate_eq_told : a.dataRate ≤ 0x0b → hwRateToMRate a.dataRate = toldRate a.dataRate :=
  forall_octet (P := fun x => x ≤ 0x0b → hwRateToMRate x = toldRate x) (by decide +kernel) _

theorem mcs_eq_told_iff (hmcs : isMcsRate a.dataRate) :
    mcsField a = toldMcs a ↔ a.moif.ofdmBw < 2 := by
  have hidx : ∀ x : UInt8, isMcsRate x → x - 0x0c = .ofNat (x.toNat - 12) :=
    forall_octet (by decide +kernel)
  have hldpc : (if a.moif.ldpc then (0x10 : UInt8) else (a.ldpc &&& 0x01) <<< 4) =
      flagBit (ldpcCoded a) 0x10 := by
    have hbit : ∀ x : UInt8, (x &&& 1) <<< 4 = flagBit (x % 2 = 1) 0x10 :=
      forall_octet (by decide +kernel)
    unfold ldpcCoded
    cases a.moif.ldpc
    · exact hbit a.ldpc
    · rfl
  obtain ⟨n, hn, hstbc⟩ : ∃ n : Fin 4, stbcStreams a = n ∧
      (if a.moif.stbc ≠ 0 then UInt8.ofNat a.moif.stbc <<< 5 else (a.stbc &&& 0x03) <<< 5) =
        UInt8.ofNat n <<< 5 := by
    have hbits : ∀ x : UInt8, (x &&& 3) <<< 5 = UInt8.ofNat (x.toNat % 4) <<< 5 :=
      forall_octet (by decide +kernel)
    unfold stbcStreams
    split_ifs
    · exact ⟨a.moif.stbc, rfl, rfl⟩
    · exact ⟨⟨a.stbc.toNat % 4, Nat.mod_lt _ (by decide)⟩, rfl, hbits _⟩
  have hflags : ∀ (phy desc wide gi ldpc : Bool) (n : Fin 4),
      flagBit phy 1 ||| flagBit desc 1 ||| flagBit gi 4 ||| flagBit ldpc 0x10 |||
          UInt8.ofNat n <<< 5 =
        .ofNat (bitsOf [(0, wide), (2, gi), (4, ldpc)] + 32 * n) ↔ (phy || desc) = wide := by
    decide +kernel
  have hwidth : (a.moif.ofdmBw != 0 || decide (a.bw = 1)) = decide (frameWidth a = 1) ↔
      a.moif.ofdmBw < 2 := by
    have hbw : a.bw = 1 ↔ a.bw.toNat = 1 := UInt8.toNat_inj.symm
    unfold frameWidth
    generalize a.moif.ofdmBw = w
    match w with
    | 0 => simp [hbw]
    | 1 => simp
    | 2 => simp
    | 3 => simp
  unfold mcsField toldMcs
  rw [sgiBit_eq, hldpc, hstbc, hn, hidx _ hmcs]
  simp only [List.cons.injEq, and_true]
  rw [and_iff_right (by decide), hflags]
  exact hwidth

theorem ampdu_eq_told : ampduField r a = toldAmpdu r a := by
  unfold ampduField toldAmpdu
  cases a.ampduEof <;> rfl

theorem vht_eq_told_iff (hvht : isVhtRate a.dataRate) :
    vhtField a = toldVht a ↔ (a.ldpc % 2 = 0 ∨ a.moif.vhtLdpcExtra ∧ a.moif.ldpc) ∧
      (a.moif.stbc ≠ 0 ∨ a.stbc % 4 ≠ 2) := by
  have hmcsNss : ∀ x : UInt8, isVhtRate x → ((x - 0x2C) % 10) <<< 4 ||| ((x - 0x2C) / 10 + 1) =
      .ofNat (16 * ((x.toNat - 44) % 10) + ((x.toNat - 44) / 10 + 1)) :=
    forall_octet (by decide +kernel)
  have hone : ∀ x : UInt8, x &&& 1 = flagBit (x % 2 = 1) 1 := forall_octet (by decide +kernel)
  have hstbc : (if a.moif.stbc ≠ 0 then 0x01 else a.stbc &&& 0x01) =
      flagBit (a.moif.stbc ≠ 0 || a.stbc % 2 = 1) 1 := by
    rw [hone]
    by_cases h : a.moif.stbc ≠ 0 <;> simp [h, flagBit]
  have hextra : (if a.moif.vhtLdpcExtra then (0x10 : UInt8) else (a.ldpc &&& 0x01) <<< 4) =
      flagBit (a.moif.vhtLdpcExtra || a.ldpc % 2 = 1) 0x10 := by
    rw [hone]
    cases a.moif.vhtLdpcExtra <;> cases decide (a.ldpc % 2 = 1) <;> rfl
  have hwidth : vhtBandwidth a = toldBandwidth (frameWidth a) := by
    have hoctet : ∀ x : UInt8, (match x with
        | 1 => (1 : UInt8)
        | 2 => 4
        | 3 => 11
        | _ => 0) = toldBandwidth x.toNat := forall_octet (by decide +kernel)
    unfold vhtBandwidth frameWidth
    split_ifs
    · rw [hoctet]
      congr 1
      rw [UInt8.toNat_ofNat']
      exact Nat.mod_eq_of_lt (by omega)
    · exact hoctet _
  have hflags : ∀ stbc stbc' txop gi nsym extra extra' bf : Bool,
      flagBit stbc 1 ||| flagBit txop 2 ||| flagBit gi 4 ||| flagBit nsym 8 |||
          flagBit extra 0x10 ||| flagBit bf 0x20 =
        .ofNat (bitsOf [(0, stbc'), (1, txop), (2, gi), (3, nsym), (4, extra'), (5, bf)]) ↔
      stbc = stbc' ∧ extra = extra' := by
    decide +kernel
  have hcoding : ∀ x y : Bool, flagBit x 1 = .ofNat (bitsOf [(0, y)]) ↔ x = y := by decide
  have hstreams : (decide (a.moif.stbc ≠ 0) || decide (a.stbc % 2 = 1)) =
      decide (stbcStreams a ≠ 0) ↔ a.moif.stbc ≠ 0 ∨ a.stbc % 4 ≠ 2 := by
    have htwo : ∀ x : UInt8, decide (x % 2 = 1) = decide (x.toNat % 4 ≠ 0) ↔ x % 4 ≠ 2 :=
      forall_octet (by decide +kernel)
    unfold stbcStreams
    by_cases h : a.moif.stbc = 0
    · simpa [h] using htwo a.stbc
    · have hval : (a.moif.stbc : ℕ) ≠ 0 := fun hz => h (Fin.ext hz)
      simp [h, hval]
  have heven : a.ldpc % 2 = 0 ↔ ¬a.ldpc % 2 = 1 :=
    forall_octet (P := fun x => x % 2 = 0 ↔ ¬x % 2 = 1) (by decide +kernel) _
  unfold vhtField toldVht vhtFlags
  rw [sgiBit_eq, hstbc, hextra, hwidth, hmcsNss _ hvht]
  rw [List.append_left_inj, show Bytes.ofLe16 0x01ff = Bytes.ofLe16 (2 ^ 9 - 1) from rfl,
    List.append_right_inj]
  simp only [List.cons.injEq, and_true, true_and, hflags, hcoding, hstreams]
  unfold ldpcCoded
  rw [heven]
  cases a.moif.vhtLdpcExtra <;> cases a.moif.ldpc <;> by_cases h : a.ldpc % 2 = 1 <;> simp [h]

/-- **The values are right exactly under the condition.** -/
theorem mainFields_eq_told_iff (r : AmpduRef) (c : OperChan) (a : MonAttrib) :
    mainFields r c a = toldMain r c a ↔ ValuesOk c a := by
  have hclasses : ∀ x : UInt8, (x ≤ 0x0b → isMcsRate x = false ∧ isVhtRate x = false) ∧
      (isMcsRate x → isVhtRate x = false) := forall_octet (by decide +kernel)
  obtain ⟨hlegacy, hmcs⟩ := hclasses a.dataRate
  have hiff : ValuesOk c a ↔ (a.moif.sgi ∨ a.sgi = 0 ∨ a.sgi % 2 = 1) ∧
      c.band5g = (14 ≤ c.operCh : Bool) ∧ (isMcsRate a.dataRate → a.moif.ofdmBw < 2) ∧
      (isVhtRate a.dataRate → (a.ldpc % 2 = 0 ∨ a.moif.vhtLdpcExtra ∧ a.moif.ldpc) ∧
        (a.moif.stbc ≠ 0 ∨ a.stbc % 4 ≠ 2)) :=
    ⟨fun h => ⟨h.guardInterval, h.channel, h.width, fun hv => ⟨h.coding hv, h.streams hv⟩⟩,
      fun h => ⟨h.2.1, h.1, h.2.2.1, fun hv => (h.2.2.2 hv).1, fun hv => (h.2.2.2 hv).2⟩⟩
  rw [hiff, ← channel_eq_told_iff (a := a), ← flags_eq_told_iff]
  unfold mainFields toldMain
  rw [ampdu_eq_told]
  by_cases h : a.dataRate ≤ 0x0b
  · rw [(hlegacy h).1, (hlegacy h).2, ← rate_eq_told h]
    cases a.ampdu <;> simp [h]
  cases hm : isMcsRate a.dataRate with
  | true =>
    rw [hmcs hm, ← mcs_eq_told_iff hm]
    cases a.ampdu <;> simp [h]
  | false =>
    cases hv : isVhtRate a.dataRate with
    | true =>
      rw [← vht_eq_told_iff hv]
      cases a.ampdu <;> simp [h]
    | false => cases a.ampdu <;> simp [h]

end Values

/-! ## The writer puts fields -/

variable {h : Hdr} {fs gs : List Field} {r : AmpduRef} {c : OperChan} {a : MonAttrib}

def Hdr.fields (h : Hdr) (fs : List Field) : Hdr :=
  ⟨h.itPresent ||| presence fs, h.buf ++ encode radiotapLayout h.rtLen fs⟩

theorem Hdr.rtLen_fields (h : Hdr) (fs : List Field) :
    (h.fields fs).rtLen = h.rtLen + (encode radiotapLayout h.rtLen fs).length := by
  simp [Hdr.fields, Hdr.rtLen, Nat.add_assoc]

theorem Hdr.fields_nil (h : Hdr) : h.fields [] = h := by
  simp [Hdr.fields, presence, encode]

theorem Hdr.fields_fields (h : Hdr) (fs gs : List Field) :
    (h.fields fs).fields gs = h.fields (fs ++ gs) := by
  have hlen := h.rtLen_fields fs
  unfold Hdr.fields at hlen ⊢
  dsimp only at hlen ⊢
  rw [presence_append, encode_append, Nat.or_assoc, List.append_assoc, hlen]

theorem Hdr.field_eq (h : Hdr) {idx align : ℕ} (data : Bytes)
    (hl : (radiotapLayout idx).elim 1 Prod.fst = align) :
    h.field idx align data = h.fields [⟨idx, data⟩] := by
  simp [Hdr.field, Hdr.write, Hdr.fields, presence, encode, place, hl]

theorem Hdr.fieldIf_eq (h : Hdr) (p : Bool) {idx align : ℕ} (data : Bytes)
    (hl : (radiotapLayout idx).elim 1 Prod.fst = align) :
    h.fieldIf p idx align data = h.fields (if p then [⟨idx, data⟩] else []) := by
  unfold Hdr.fieldIf
  split_ifs
  · exact h.field_eq data hl
  · exact h.fields_nil.symm

theorem Hdr.antenna_eq (a : MonAttrib) (h : Hdr) (i : ℕ) :
    Hdr.antenna a h i =
      ⟨h.itPresent, h.buf ++ encode radiotapLayout h.rtLen (antennaFields a i)⟩ := by
  have h5 : radiotapLayout 5 = some (1, 1) := rfl
  have h6 : radiotapLayout 6 = some (1, 1) := rfl
  have h7 : radiotapLayout 7 = some (2, 2) := rfl
  have h11 : radiotapLayout 11 = some (1, 1) := rfl
  simp only [Hdr.antenna, Hdr.write, Hdr.rtLen, antennaFields, encode, place, h5, h6, h7, h11,
    Option.elim_some, List.append_assoc, List.append_nil, List.length_append, Nat.add_assoc]

/-- **The loop over the antennas writes block after block.** -/
theorem antennas_eq (a : MonAttrib) (is : List ℕ) (h : Hdr) :
    is.foldl (Hdr.antenna a) h =
      ⟨h.itPresent, h.buf ++ encodeAll radiotapLayout h.rtLen (is.map (antennaFields a))⟩ := by
  induction is generalizing h with
  | nil => simp [encodeAll]
  | cons i is ih =>
    rw [List.foldl_cons, ih, Hdr.antenna_eq]
    simp [Hdr.rtLen, encodeAll, Nat.add_assoc]

/-- **The writer is the writer of its fields**: the main fields, and one block more than there are
antennas. -/
theorem rtwFillRadiotapHdr_eq (rfType : Option RfType) (r : AmpduRef) (c : OperChan)
    (a : MonAttrib) (headroom : ℕ) :
    (rtwFillRadiotapHdr rfType r c a headroom).1 =
      let n := rfTypeToRfRxCnt rfType
      let h := (Hdr.start n).fields (mainFields r c a)
      let h := if 1 < n then (List.range (n + 1)).foldl (Hdr.antenna a) h else h
      if headroom < h.rtLen then none else some h.bytes := by
  have hampdu : (if a.ampdu = true then
      [(⟨20, ampduField (if a.ampdu = true then r.next a else r) a⟩ : Field)] else []) =
      if a.ampdu = true then [⟨20, ampduField (r.next a) a⟩] else [] := by
    split_ifs <;> rfl
  unfold rtwFillRadiotapHdr mainFields
  dsimp only
  rw [Hdr.field_eq _ _ (by rfl), Hdr.fieldIf_eq _ _ _ (by rfl), Hdr.field_eq _ _ (by rfl),
    Hdr.field_eq _ _ (by rfl), Hdr.fieldIf_eq _ _ _ (by rfl), Hdr.fieldIf_eq _ _ _ (by rfl),
    Hdr.fieldIf_eq _ _ _ (by rfl), hampdu]
  simp only [Hdr.fields_fields, decide_eq_true_eq]

/-! ## Words -/

theorem radiotapLayout_cases {i align n : ℕ} (h : radiotapLayout i = some (align, n)) :
    0 < align ∧ align ≤ 8 := by
  have hall : ∀ p ∈ rtapNamespaceSizes, 0 < p.2 → 0 < p.1 ∧ p.1 ≤ 8 := by decide
  obtain ⟨hget, hpos⟩ := Option.filter_eq_some_iff.mp h
  exact hall _ (List.mem_of_getElem? hget) (of_decide_eq_true hpos)

theorem radiotapLayout_valid : radiotapLayout.Valid := fun _ _ _ h => (radiotapLayout_cases h).1

theorem mainFields_sorted (r : AmpduRef) (c : OperChan) (a : MonAttrib) :
    ((mainFields r c a).map Field.idx).Pairwise (· < ·) := by
  unfold mainFields
  split_ifs <;> simp

theorem mainFields_lt (r : AmpduRef) (c : OperChan) (a : MonAttrib) :
    ∀ i ∈ (mainFields r c a).map Field.idx, i < 29 := by
  unfold mainFields
  split_ifs <;> simp

theorem forall_mem_ite {P : Field → Prop} {f : Field} (p : Prop) [Decidable p] (hf : P f) :
    ∀ g ∈ if p then [f] else [], P g := by
  split_ifs
  · simpa using hf
  · simp

theorem mainFields_fits (r : AmpduRef) (c : OperChan) (a : MonAttrib) :
    ∀ f ∈ mainFields r c a, Fits radiotapLayout f := by
  unfold mainFields
  simp only [List.forall_mem_append, List.forall_mem_singleton]
  exact ⟨⟨⟨⟨⟨⟨rfl, forall_mem_ite _ rfl⟩, rfl⟩, rfl⟩, forall_mem_ite _ rfl⟩,
    forall_mem_ite _ rfl⟩, forall_mem_ite _ rfl⟩

theorem antennaFields_fits (a : MonAttrib) (i : ℕ) :
    ∀ f ∈ antennaFields a i, Fits radiotapLayout f := by
  simp [antennaFields, Fits, radiotapLayout, rtapNamespaceSizes]

def extWords (n : ℕ) : List ℕ :=
  if 1 < n then List.replicate (n - 1) (Hdr.antWord + 2 ^ 29 + 2 ^ 31) ++ [Hdr.antWord] else []

def presentOf (n : ℕ) (fs : List Field) : List ℕ :=
  ((Hdr.start n).itPresent ||| presence fs) :: extWords n

theorem start_buf (n : ℕ) : (Hdr.start n).buf = (extWords n).flatMap ofLe32 := by
  unfold Hdr.start extWords
  split_ifs <;> rfl

theorem presence_lt {fs : List Field} (h : ∀ i ∈ fs.map Field.idx, i < 29) :
    presence fs < 2 ^ 29 := by
  refine Nat.lt_pow_two_of_testBit _ fun i hi => ?_
  rw [← Bool.not_eq_true, testBit_presence]
  exact fun hmem => absurd (h i hmem) (Nat.not_lt.mpr hi)

theorem describes_antennas (a : MonAttrib) (i : ℕ) (is : List ℕ) :
    Describes radiotapLayout 0
      (List.replicate is.length (Hdr.antWord + 2 ^ 29 + 2 ^ 31) ++ [Hdr.antWord])
      ((i :: is).map (antennaFields a)) := by
  induction is generalizing i with
  | nil =>
    refine .cons (by decide) ?_ (antennaFields_fits a i) (.nil _)
    show (indices Hdr.antWord).map (0 + ·) = [5, 6, 7, 11]
    decide
  | cons j is ih =>
    refine .cons (by decide) ?_ (antennaFields_fits a i) (ih j)
    show (indices (Hdr.antWord + 2 ^ 29 + 2 ^ 31)).map (0 + ·) = [5, 6, 7, 11]
    decide

theorem chained_antennas (n : ℕ) :
    Chained (List.replicate n (Hdr.antWord + 2 ^ 29 + 2 ^ 31) ++ [Hdr.antWord]) := by
  induction n with
  | zero => exact ⟨by decide, by decide⟩
  | succ n ih =>
    rw [List.replicate_succ, List.cons_append]
    cases n with
    | zero => exact ⟨by decide, by decide, ih⟩
    | succ n => exact ⟨by decide, by decide, ih⟩

section Main

variable {fs : List Field} (n : ℕ)

theorem presentOf_main (h : ∀ i ∈ fs.map Field.idx, i < 29) :
    (∀ i < 29, ((Hdr.start n).itPresent ||| presence fs).testBit i = (presence fs).testBit i) ∧
    ((Hdr.start n).itPresent ||| presence fs).testBit 30 = false ∧
    ((Hdr.start n).itPresent ||| presence fs).testBit 29 = decide (1 < n) ∧
    ((Hdr.start n).itPresent ||| presence fs).testBit 31 = decide (1 < n) ∧
    ((Hdr.start n).itPresent ||| presence fs) < 2 ^ 32 := by
  have hlt := presence_lt h
  have hhigh {i : ℕ} (hi : 29 ≤ i) : (presence fs).testBit i = false :=
    Nat.testBit_lt_two_pow (hlt.trans_le (Nat.pow_le_pow_right (by decide) hi))
  have hstart : (Hdr.start n).itPresent = if 1 < n then 2 ^ 29 + 2 ^ 31 else 0 := by
    unfold Hdr.start
    split_ifs <;> rfl
  rw [hstart]
  refine ⟨fun i hi => ?_, ?_, ?_, ?_, ?_⟩
  · have hlow : ∀ i < 29, (2 ^ 29 + 2 ^ 31).testBit i = false := by decide
    rw [Nat.testBit_or]
    split_ifs
    · rw [hlow i hi, Bool.false_or]
    · rw [Nat.zero_testBit, Bool.false_or]
  · rw [Nat.testBit_or, hhigh (by decide), Bool.or_false]
    split_ifs <;> decide
  · rw [Nat.testBit_or, hhigh (by decide), Bool.or_false]
    split_ifs with hn
    · rw [decide_eq_true hn]
      decide
    · rw [decide_eq_false hn]
      decide
  · rw [Nat.testBit_or, hhigh (by decide), Bool.or_false]
    split_ifs with hn
    · rw [decide_eq_true hn]
      decide
    · rw [decide_eq_false hn]
      decide
  · refine Nat.or_lt_two_pow ?_ (hlt.trans (by decide))
    split_ifs <;> decide

theorem presentOf_chained (h : ∀ i ∈ fs.map Field.idx, i < 29) : Chained (presentOf n fs) := by
  obtain ⟨-, -, -, hext, hlt⟩ := presentOf_main n h
  unfold presentOf extWords
  by_cases hn : 1 < n
  · rw [if_pos hn]
    rw [decide_eq_true hn] at hext
    have hchain := chained_antennas (n - 1)
    cases hws : List.replicate (n - 1) (Hdr.antWord + 2 ^ 29 + 2 ^ 31) ++ [Hdr.antWord] with
    | nil => simp at hws
    | cons w ws =>
      rw [hws] at hchain
      exact ⟨hlt, hext, hchain⟩
  · rw [if_neg hn]
    rw [decide_eq_false hn] at hext
    exact ⟨hlt, hext⟩

theorem presentOf_describes (r : AmpduRef) (c : OperChan) (a : MonAttrib) :
    Describes radiotapLayout 0 (presentOf n (mainFields r c a)) (headerFields n r c a) := by
  obtain ⟨hlow, hvendor, hns, -, -⟩ := presentOf_main n (mainFields_lt r c a)
  have hidx := indices_presence hlow (mainFields_sorted r c a) (mainFields_lt r c a)
  refine .cons hvendor ?_ (mainFields_fits r c a) ?_
  · rw [hidx]
    simp
  · rw [hns]
    unfold extWords
    by_cases hn : 1 < n
    · rw [if_pos hn, if_pos hn, if_pos (decide_eq_true hn)]
      obtain ⟨m, rfl⟩ : ∃ m, n = m + 1 := ⟨n - 1, by omega⟩
      have hdesc := describes_antennas a 0 ((List.range m).map Nat.succ)
      rw [List.length_map, List.length_range, ← List.range_succ_eq_map] at hdesc
      exact hdesc
    · rw [if_neg hn, if_neg hn]
      exact .nil _

end Main

theorem length_place_le (pos : ℕ) (f : Field) :
    (place radiotapLayout pos f).length ≤ 8 + f.data.length := by
  unfold place
  rw [List.length_append]
  refine Nat.add_le_add_right ?_ _
  unfold padding alignUp
  rw [List.length_replicate]
  cases hl : radiotapLayout f.idx with
  | none => simp
  | some p =>
    obtain ⟨hpos, hle⟩ := radiotapLayout_cases (show _ = some (p.1, p.2) from hl)
    have hdiv := Nat.div_mul_le_self (pos + (p.1 - 1)) p.1
    show (pos + (p.1 - 1)) / p.1 * p.1 - pos ≤ 8
    omega

theorem length_encode_le (pos : ℕ) (fs : List Field) :
    (encode radiotapLayout pos fs).length ≤ (fs.map fun f => 8 + f.data.length).sum := by
  induction fs generalizing pos with
  | nil => exact le_rfl
  | cons f fs ih =>
    rw [encode, List.length_append, List.map_cons, List.sum_cons]
    exact Nat.add_le_add (length_place_le pos f) (ih _)

theorem length_mainFields_le (pos : ℕ) (r : AmpduRef) (c : OperChan) (a : MonAttrib) :
    (encode radiotapLayout pos (mainFields r c a)).length ≤ 100 := by
  refine (length_encode_le pos _).trans ?_
  have hmcs : (mcsField a).length = 3 := rfl
  have hampdu : (ampduField (r.next a) a).length = 8 := rfl
  have hvht : (vhtField a).length = 12 := rfl
  have hchan : (Bytes.ofLe16 (chan2freq c.operCh) ++ Bytes.ofLe16 (channelFlags c a)).length = 4 :=
    rfl
  unfold mainFields
  split_ifs <;> simp [hmcs, hampdu, hvht, hchan]

theorem length_antennas_le (pos : ℕ) (a : MonAttrib) (is : List ℕ) :
    (encodeAll radiotapLayout pos (is.map (antennaFields a))).length ≤ 37 * is.length := by
  induction is generalizing pos with
  | nil => exact le_rfl
  | cons i is ih =>
    have hblock : (encode radiotapLayout pos (antennaFields a i)).length ≤ 37 :=
      length_encode_le pos _
    have hrest := ih (pos + (encode radiotapLayout pos (antennaFields a i)).length)
    simp only [List.map_cons, encodeAll, List.length_append, List.length_cons]
    omega

theorem rfTypeToRfRxCnt_le (rfType : Option RfType) : rfTypeToRfRxCnt rfType ≤ 4 := by
  cases rfType with
  | none => exact Nat.zero_le _
  | some t => exact t.rx.isLt

/-! ## The header -/

def surplus (n : ℕ) (a : MonAttrib) : List (List Field) :=
  if 1 < n then [antennaFields a n] else []

theorem headerFields_surplus (n : ℕ) (r : AmpduRef) (c : OperChan) (a : MonAttrib) :
    headerFields n r c a ++ surplus n a =
      mainFields r c a :: if 1 < n then (List.range (n + 1)).map (antennaFields a) else [] := by
  unfold headerFields surplus
  split_ifs
  · rw [List.cons_append, List.range_succ, List.map_append]
    rfl
  · rfl

theorem written_eq (n : ℕ) (r : AmpduRef) (c : OperChan) (a : MonAttrib) :
    (if 1 < n then
      (List.range (n + 1)).foldl (Hdr.antenna a) ((Hdr.start n).fields (mainFields r c a))
    else (Hdr.start n).fields (mainFields r c a)) =
      ⟨(Hdr.start n).itPresent ||| presence (mainFields r c a), (extWords n).flatMap ofLe32 ++
        encodeAll radiotapLayout (Hdr.start n).rtLen
          (headerFields n r c a ++ surplus n a)⟩ := by
  rw [headerFields_surplus, ← start_buf]
  split_ifs
  · rw [antennas_eq, Hdr.rtLen_fields]
    simp only [Hdr.fields, encodeAll, List.append_assoc]
  · simp only [Hdr.fields, encodeAll, List.append_nil]

theorem length_flatMap_ofLe32 (ws : List ℕ) : (ws.flatMap ofLe32).length = 4 * ws.length := by
  induction ws with
  | nil => rfl
  | cons w ws ih =>
    rw [List.flatMap_cons, List.length_append, ih, List.length_cons]
    simp only [ofLe32, List.length_cons, List.length_nil]
    omega

theorem length_written_le {n : ℕ} (hn : n ≤ 4) (pos : ℕ) (r : AmpduRef) (c : OperChan)
    (a : MonAttrib) :
    (encodeAll radiotapLayout pos (headerFields n r c a ++ surplus n a)).length ≤ 285 := by
  have hmain := length_mainFields_le pos r c a
  rw [headerFields_surplus, encodeAll, List.length_append]
  split_ifs
  · have hants := length_antennas_le
      (pos + (encode radiotapLayout pos (mainFields r c a)).length) a (List.range (n + 1))
    rw [List.length_range] at hants
    omega
  · simp only [encodeAll, List.length_nil]
    omega

/-- **The header in memory**: the words, the fields they announce, and the surplus. -/
theorem bytes_eq (rfType : Option RfType) (r : AmpduRef) (c : OperChan) (a : MonAttrib)
    (headroom : ℕ) (hdr : Bytes) (h : (rtwFillRadiotapHdr rfType r c a headroom).1 = some hdr) :
    ∃ pre : Bytes, hdr.le16 2 = hdr.length ∧ hdr.u8 0 = 0 ∧
      pre.length = 4 + 4 * (presentOf (rfTypeToRfRxCnt rfType) (mainFields r c a)).length ∧
      hdr = pre ++ encodeAll radiotapLayout pre.length
        (headerFields (rfTypeToRfRxCnt rfType) r c a ++ surplus (rfTypeToRfRxCnt rfType) a) ∧
      hdr.drop 4 = (presentOf (rfTypeToRfRxCnt rfType) (mainFields r c a)).flatMap ofLe32 ++
        hdr.drop pre.length := by
  have hn := rfTypeToRfRxCnt_le rfType
  rw [rtwFillRadiotapHdr_eq] at h
  dsimp only at h
  generalize rfTypeToRfRxCnt rfType = n at hn h ⊢
  rw [written_eq] at h
  split_ifs at h
  obtain rfl := Option.some.inj h
  have hext : (extWords n).length ≤ 4 := by
    unfold extWords
    split_ifs
    · simp only [List.length_append, List.length_replicate, List.length_singleton]
      omega
    · exact Nat.zero_le _
  have hstart : (Hdr.start n).rtLen = 8 + 4 * (extWords n).length := by
    rw [Hdr.rtLen, start_buf, length_flatMap_ofLe32]
  have hbody := length_written_le hn (Hdr.start n).rtLen r c a
  have hwords : (presentOf n (mainFields r c a)).flatMap ofLe32 =
      ofLe32 ((Hdr.start n).itPresent ||| presence (mainFields r c a)) ++
        (extWords n).flatMap ofLe32 := List.flatMap_cons ..
  have hwordsLen := length_flatMap_ofLe32 (presentOf n (mainFields r c a))
  generalize hlen : Hdr.rtLen ⟨(Hdr.start n).itPresent ||| presence (mainFields r c a),
    (extWords n).flatMap ofLe32 ++ encodeAll radiotapLayout (Hdr.start n).rtLen
      (headerFields n r c a ++ surplus n a)⟩ = len
  have hlen' : len = (Hdr.start n).rtLen + (encodeAll radiotapLayout (Hdr.start n).rtLen
      (headerFields n r c a ++ surplus n a)).length := by
    rw [← hlen, hstart, Hdr.rtLen, List.length_append, length_flatMap_ofLe32, Nat.add_assoc]
  have hpre : ([0, 0] ++ Bytes.ofLe16 len ++
      (presentOf n (mainFields r c a)).flatMap ofLe32).length = (Hdr.start n).rtLen := by
    rw [List.length_append, hwordsLen, hstart]
    simp only [Bytes.ofLe16, presentOf, List.length_append, List.length_cons, List.length_nil]
    omega
  have hhdr : Hdr.bytes ⟨(Hdr.start n).itPresent ||| presence (mainFields r c a),
      (extWords n).flatMap ofLe32 ++ encodeAll radiotapLayout (Hdr.start n).rtLen
        (headerFields n r c a ++ surplus n a)⟩ =
      ([0, 0] ++ Bytes.ofLe16 len ++ (presentOf n (mainFields r c a)).flatMap ofLe32) ++
        encodeAll radiotapLayout (Hdr.start n).rtLen (headerFields n r c a ++ surplus n a) := by
    unfold Hdr.bytes
    rw [hlen, hwords]
    simp only [List.append_assoc]
  rw [hhdr]
  refine ⟨[0, 0] ++ Bytes.ofLe16 len ++ (presentOf n (mainFields r c a)).flatMap ofLe32, ?_, rfl,
    ?_, by rw [hpre], ?_⟩
  · rw [List.length_append, hpre, ← hlen']
    have hsmall : len < 65536 := by omega
    simp only [Bytes.le16, Bytes.u8, Bytes.ofLe16, List.cons_append, List.nil_append,
      List.getD_cons_succ, List.getD_cons_zero, UInt8.toNat_ofNat']
    omega
  · rw [hpre, hstart]
    simp only [presentOf, List.length_cons]
    omega
  · rw [List.drop_left]
    rfl

def mcsAttrib : MonAttrib where
  dataRate := 0x0c
  ampdu := true
  ppduCnt := 1
  recvSignalPower := 0xc4

end Rtl88x2eu.MonitorRx
