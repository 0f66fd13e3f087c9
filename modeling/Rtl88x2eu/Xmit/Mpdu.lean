import Rtl88x2eu.Xmit.Coalesce

/-!
# The octets of an MPDU

What stands in the transmit buffer of a frame that is not cut: the header, the initialisation
vector of the attributes, and the data, to which the Michael code was added, as the software cipher
left them.

## Main definitions

* `wlanHdr`, `micPseudo`, `plainBody`

## Main results

* `rtwMakeWlanhdr_read`: the header in the buffer
* `coalesce_octets`: the whole MPDU
-/

namespace Rtl88x2eu.Xmit

open Memory

/-! ## The header -/

@[simp] theorem length_ofLe16 (n : ℕ) : (Bytes.ofLe16 n).length = 2 := rfl

/-- The frame control field. -/
def wlanFc (p : PktAttrib) (ds : ℕ) : ℕ :=
  p.subtype ||| ds ||| (if p.mdata then 0x2000 else 0) |||
    (if p.encrypt = .noPrivacy then 0 else 0x4000)

/-- The QoS control field. -/
def wlanQc (p : PktAttrib) : ℕ := p.priority % 16 + 16 * p.eosp.toNat + 32 * (p.ackPolicy % 4)

/-- **The octets of a header**, of 24 octets or 26. -/
def wlanHdr (p : PktAttrib) (ds : ℕ) (addresses : Bytes) (qos : Bool) (seqnum : ℕ) : Bytes :=
  Bytes.ofLe16 (wlanFc p ds) ++ [0, 0] ++ addresses ++
    [UInt8.ofNat (seqnum % 16 * 16), UInt8.ofNat (seqnum / 16)] ++
    if qos then Bytes.ofLe16 (wlanQc p) else []

/-- A data frame whose header has room for what is written into it. -/
structure DataHdr (a : Adapter) (p : PktAttrib) : Prop where
  subtype : p.subtype = wifiDataType ∨ p.subtype = wifiQosDataType
  hdrlen : ∀ ds addresses qos, hdrAddresses a p = some (ds, addresses, qos) →
    p.hdrlen = if qos then wlanHdrA3QosLen else wlanHdrA3Len
  qos : ∀ ds addresses qos, hdrAddresses a p = some (ds, addresses, qos) →
    p.subtype = if qos then wifiQosDataType else wifiDataType

theorem hdrAddresses_some {a : Adapter} {p : PktAttrib} {ds : ℕ} {addresses : Bytes} {qos : Bool}
    (h : hdrAddresses a p = some (ds, addresses, qos)) :
    (ds = 0 ∨ ds = 0x100 ∨ ds = 0x200) ∧ addresses.length = 18 := by
  unfold hdrAddresses at h
  split at h
  all_goals simp only [Option.some.injEq, Prod.mk.injEq, reduceCtorEq] at h
  all_goals
    obtain ⟨rfl, rfl, -⟩ := h
    exact ⟨by decide, rfl⟩

section Header

variable {a a' : Adapter} {p p' : PktAttrib} {m : Mem} {hdr ds : ℕ} {addresses : Bytes}
  {qos : Bool}

theorem read_zero_part (hzero : read m (hdr + 2) 62 = List.replicate 62 0) {k n : ℕ}
    (h : k + n ≤ 62) : read m (hdr + 2 + k) n = List.replicate n 0 := by
  have hdrop : read m (hdr + 2 + k) (62 - k) = List.replicate (62 - k) 0 := by
    rw [← drop_read (by omega), hzero, List.drop_replicate]
  rw [← take_read (show n ≤ 62 - k by omega), hdrop, List.take_replicate,
    Nat.min_eq_left (by omega)]

theorem read_fc_addresses (hzero : read m (hdr + 2) 62 = List.replicate 62 0)
    (haddresses : addresses.length = 18) (fc : ℕ) :
    read (write (write m hdr (Bytes.ofLe16 fc)) (hdr + 4) addresses) hdr 22 =
        Bytes.ofLe16 fc ++ [0, 0] ++ addresses ∧
      ∀ k n, 20 ≤ k → k + n ≤ 62 →
        read (write (write m hdr (Bytes.ofLe16 fc)) (hdr + 4) addresses) (hdr + 2 + k) n =
          List.replicate n 0 := by
  constructor
  · have hfc : read (write (write m hdr (Bytes.ofLe16 fc)) (hdr + 4) addresses) hdr 2 =
        Bytes.ofLe16 fc := by
      rw [read_write_of_disjoint (.inl (by omega))]
      exact read_write
    have hgap : read (write (write m hdr (Bytes.ofLe16 fc)) (hdr + 4) addresses) (hdr + 2) 2 =
        [0, 0] := by
      rw [read_write_of_disjoint (.inl (by omega)),
        read_write_of_disjoint (.inr (by rw [length_ofLe16]))]
      exact read_zero_part hzero (k := 0) (by omega)
    have haddr : read (write (write m hdr (Bytes.ofLe16 fc)) (hdr + 4) addresses) (hdr + 4) 18 =
        addresses := by
      rw [← haddresses]
      exact read_write
    rw [show 22 = 2 + 2 + 18 from rfl, read_add, read_add, haddr, hfc, hgap]
  · intro k n hk h
    rw [read_write_of_disjoint (.inr (by omega)),
      read_write_of_disjoint (.inr (by rw [length_ofLe16]; omega)), read_zero_part hzero h]

theorem read_putHdr (ds : ℕ) (hzero : read m (hdr + 2) 62 = List.replicate 62 0)
    (haddresses : addresses.length = 18)
    (hhdrlen : p.hdrlen = if qos then wlanHdrA3QosLen else wlanHdrA3Len) :
    read (putHdr m hdr p ds addresses qos) hdr 22 =
        Bytes.ofLe16 (wlanFc p ds) ++ [0, 0] ++ addresses ∧
      read (putHdr m hdr p ds addresses qos) (hdr + 22) 2 = [0, 0] ∧
      read (putHdr m hdr p ds addresses qos) (hdr + 24) (p.hdrlen - 24) =
        if qos then Bytes.ofLe16 (wlanQc p) else [] := by
  obtain ⟨hfc, hrest⟩ := read_fc_addresses hzero haddresses (wlanFc p ds)
  cases qos
  · refine ⟨hfc, hrest 20 2 le_rfl (by omega), ?_⟩
    rw [hhdrlen]
    rfl
  · have hlen : hdr + p.hdrlen - 2 = hdr + 24 := by
      rw [hhdrlen]
      rfl
    simp only [putHdr, if_true, hlen]
    refine ⟨?_, ?_, ?_⟩
    · rw [read_write_of_disjoint (.inl (by omega))]
      exact hfc
    · rw [read_write_of_disjoint (.inl (by omega))]
      exact hrest 20 2 le_rfl (by omega)
    · rw [hhdrlen]
      exact read_write

theorem read_setSeqNum {n num : ℕ} (hn : 24 ≤ n) (hzero : read m (hdr + 22) 2 = [0, 0]) :
    read (setSeqNum m hdr num) hdr n =
      read m hdr 22 ++ [UInt8.ofNat (num % 16 * 16), UInt8.ofNat (num / 16)] ++
        read m (hdr + 24) (n - 24) := by
  have h22 : m (hdr + 22) = 0 := by
    simpa [Memory.read, List.range_succ] using congrArg (fun l => l.getD 0 0) hzero
  obtain ⟨k, rfl⟩ := Nat.exists_eq_add_of_le hn
  have hseq : read (setSeqNum m hdr num) (hdr + 22) 2 =
      [UInt8.ofNat (num % 16 * 16), UInt8.ofNat (num / 16)] := by
    simp only [setSeqNum, h22, UInt8.zero_and, UInt8.zero_or]
    exact read_write
  rw [show 24 + k = 22 + 2 + k from rfl, read_add, read_add, hseq, setSeqNum,
    read_write_of_disjoint (.inl (by omega)), read_write_of_disjoint (.inr (by simp)),
    Nat.add_sub_cancel_left]

/-- **The header in the buffer.** -/
theorem rtwMakeWlanhdr_read (hdata : DataHdr a p)
    (h : (rtwMakeWlanhdr a m hdr p).1 = some (p', a')) :
    ∃ ds addresses qos, hdrAddresses a p = some (ds, addresses, qos) ∧
      read (rtwMakeWlanhdr a m hdr p).2 hdr p.hdrlen = wlanHdr p ds addresses qos p'.seqnum := by
  have hbit : p.subtype.testBit 3 = true := by
    rcases hdata.subtype with h | h <;> rw [h] <;> decide
  have hzero : read (write (write m hdr (List.replicate wlanhdrOffset 0)) hdr
      (Bytes.ofLe16 p.subtype)) (hdr + 2) 62 = List.replicate 62 0 := by
    rw [read_write_of_disjoint (.inr (by rw [length_ofLe16])),
      read_write_part (by simp [wlanhdrOffset])]
    rfl
  simp only [rtwMakeWlanhdr, hbit, if_true] at h ⊢
  rcases hhdr : hdrAddresses a p with _ | ⟨ds, addresses, qos⟩
  · rw [hhdr] at h
    cases h
  obtain ⟨-, haddresses⟩ := hdrAddresses_some hhdr
  obtain ⟨hfc, hseq, hqc⟩ := read_putHdr ds hzero haddresses (hdata.hdrlen _ _ _ hhdr)
  rw [hhdr] at h
  dsimp only at h
  rcases hnumber : numberFrame a p with _ | ⟨q, b⟩
  · rw [hnumber] at h
    cases h
  rw [hnumber] at h
  obtain ⟨rfl, rfl⟩ := Prod.mk.inj (Option.some.inj h)
  have hlen : 24 ≤ p.hdrlen := by
    rw [hdata.hdrlen _ _ _ hhdr]
    split <;> decide
  refine ⟨ds, addresses, qos, rfl, ?_⟩
  dsimp only
  rw [read_setSeqNum hlen hseq, hfc, hqc]
  rfl

end Header

def micPriority (p : PktAttrib) : UInt8 := if p.qosEn then UInt8.ofNat p.priority else 0

/-- The addresses and the priority that the Michael code goes over. -/
def micPseudo (hdr : Bytes) (priority : UInt8) : Bytes :=
  let toDs := hdr.u8 1 &&& 1 != 0
  let frDs := hdr.u8 1 &&& 2 != 0
  let da := if toDs then 16 else 4
  let sa := if toDs then (if frDs then 24 else 10) else (if frDs then 16 else 10)
  (hdr.mac da).toBytes ++ (hdr.mac sa).toBytes ++ [priority, 0, 0, 0]

def ThreeAddr (hdr : Bytes) : Prop := ¬(hdr.u8 1 &&& 1 != 0 ∧ hdr.u8 1 &&& 2 != 0)

theorem mac_read {m : Mem} {a n k : ℕ} (h : k + 6 ≤ n) :
    (Bytes.mac (read m a n) k).toBytes = read m (a + k) 6 := by
  simp only [Bytes.mac, MacAddr.toBytes]
  rw [u8_read (by omega), u8_read (by omega), u8_read (by omega), u8_read (by omega),
    u8_read (by omega), u8_read (by omega)]
  rfl

theorem micHeader_eq {p : PktAttrib} {m : Mem} {pframe n : ℕ} (hn : 24 ≤ n)
    (h : ThreeAddr (read m pframe n)) :
    micHeader p m pframe = micPseudo (read m pframe n) (micPriority p) := by
  have hctrl : Bytes.u8 (read m pframe n) 1 = m (pframe + 1) := u8_read (by omega)
  rw [ThreeAddr, hctrl] at h
  simp only [micPseudo, micHeader, hctrl, micPriority]
  congr 1
  cases hto : m (pframe + 1) &&& 1 != 0 <;> cases hfr : m (pframe + 1) &&& 2 != 0
  case true.true => exact absurd ⟨hto, hfr⟩ h
  all_goals
    simp only [if_true, Bool.false_eq_true, if_false]
    rw [mac_read (by omega), mac_read (by omega)]

theorem wlanHdr_flags {p : PktAttrib} {ds : ℕ} (hds : ds = 0 ∨ ds = 0x100 ∨ ds = 0x200)
    (hsubtype : p.subtype = wifiDataType ∨ p.subtype = wifiQosDataType) (addresses : Bytes)
    (qos : Bool) (seqnum : ℕ) :
    let hdr := wlanHdr p ds addresses qos seqnum
    (hdr.u8 1 ||| 0x04) &&& 0xfb = hdr.u8 1 ∧ ThreeAddr hdr := by
  have hu8 : Bytes.u8 (wlanHdr p ds addresses qos seqnum) 1 = UInt8.ofNat (wlanFc p ds / 256) := rfl
  simp only [ThreeAddr, hu8, wlanFc]
  rcases hds with rfl | rfl | rfl <;> rcases hsubtype with h | h <;> rw [h] <;>
    cases p.mdata <;> by_cases henc : p.encrypt = .noPrivacy <;> simp only [henc] <;> decide

/-- **What a receiver reads in a header.** -/
structure HdrReads (hdr : Bytes) (a₁ a₂ : MacAddr) (qos : Bool) (priority : ℕ) : Prop where
  length : hdr.length = if qos then wlanHdrA3QosLen else wlanHdrA3Len
  three : ThreeAddr hdr
  toFrDs : getToFrDs hdr ≠ 3
  order : getOrder hdr = false
  isQos : subTypeQos hdr = qos
  addr1 : getAddr1 hdr = a₁
  addr2 : getAddr2 hdr = a₂
  tid : qos → getPriority hdr wlanHdrA3Len = priority % 16
  /-- The A-MSDU bit is clear. -/
  amsdu : hdr.u8 24 &&& 0x8f = hdr.u8 24 &&& 0x0f

theorem and_of_lt {x : UInt8} (h : x < 128) : x &&& 0x8f = x &&& 0x0f := by
  have hlow : x &&& 0x7f = x := by
    apply UInt8.toNat_inj.mp
    rw [UInt8.toNat_and]
    exact (Nat.and_two_pow_sub_one_eq_mod x.toNat 7).trans (Nat.mod_eq_of_lt h)
  rw [← hlow, UInt8.and_assoc, UInt8.and_assoc]
  rfl

theorem wlanQc_lt (p : PktAttrib) : wlanQc p < 128 := by
  have := Bool.toNat_lt p.eosp
  rw [wlanQc]
  omega

theorem wlanFc_bits {p : PktAttrib} {ds : ℕ} {qos : Bool} (hds : ds = 0 ∨ ds = 0x100 ∨ ds = 0x200)
    (hqos : p.subtype = if qos then wifiQosDataType else wifiDataType) :
    let fc := wlanFc p ds
    fc < 0x8000 ∧ fc.testBit 7 = qos ∧ fc.testBit 15 = false ∧
      2 * (fc.testBit 9).toNat + (fc.testBit 8).toNat ≠ 3 := by
  simp only [wlanFc, hqos]
  rcases hds with rfl | rfl | rfl <;> cases qos <;> cases p.mdata <;>
    by_cases henc : p.encrypt = .noPrivacy <;> simp only [henc] <;> decide

theorem wlanHdr_reads {p : PktAttrib} {ds : ℕ} {qos : Bool} (hds : ds = 0 ∨ ds = 0x100 ∨ ds = 0x200)
    (hqos : p.subtype = if qos then wifiQosDataType else wifiDataType) (a₁ a₂ a₃ : MacAddr)
    (seqnum : ℕ) :
    HdrReads (wlanHdr p ds (a₁.toBytes ++ a₂.toBytes ++ a₃.toBytes) qos seqnum) a₁ a₂ qos
      p.priority := by
  obtain ⟨hlt, hbit7, hbit15, hbits⟩ := wlanFc_bits hds hqos
  have hsubtype : p.subtype = wifiDataType ∨ p.subtype = wifiQosDataType := by
    cases qos
    · exact .inl hqos
    · exact .inr hqos
  generalize hhdr : wlanHdr p ds (a₁.toBytes ++ a₂.toBytes ++ a₃.toBytes) qos seqnum = hdr
  have hfc : frameCtrl hdr = wlanFc p ds := by
    have hle : frameCtrl hdr = (UInt8.ofNat (wlanFc p ds)).toNat +
        256 * (UInt8.ofNat (wlanFc p ds / 256)).toNat := by
      rw [← hhdr]
      rfl
    rw [hle, UInt8.toNat_ofNat', UInt8.toNat_ofNat']
    omega
  constructor
  case three =>
    rw [← hhdr]
    exact (wlanHdr_flags hds hsubtype _ _ _).2
  case toFrDs => rwa [getToFrDs, getFrDs, getToDs, hfc]
  case order => rwa [getOrder, hfc]
  case isQos => rwa [subTypeQos, hfc]
  case tid =>
    rintro rfl
    have hle : Bytes.le16 hdr wlanHdrA3Len = (UInt8.ofNat (wlanQc p)).toNat +
        256 * (UInt8.ofNat (wlanQc p / 256)).toNat := by
      rw [← hhdr]
      rfl
    have hpriority : wlanQc p % 16 = p.priority % 16 := by
      rw [wlanQc]
      omega
    rw [getPriority, hle, UInt8.toNat_ofNat', UInt8.toNat_ofNat']
    omega
  case amsdu =>
    rw [← hhdr]
    refine and_of_lt ?_
    cases qos
    · exact Nat.zero_lt_succ 127
    · show (UInt8.ofNat (wlanQc p)).toNat < 128
      have := wlanQc_lt p
      rw [UInt8.toNat_ofNat']
      omega
  all_goals
    rw [← hhdr]
    cases qos <;> rfl

theorem wlanFc_direction {p : PktAttrib} {ds : ℕ} (hds : ds = 0 ∨ ds = 0x100 ∨ ds = 0x200)
    (hsubtype : p.subtype = wifiDataType ∨ p.subtype = wifiQosDataType) :
    (UInt8.ofNat (wlanFc p ds / 256) &&& 1 != 0) = decide (ds = 0x100) ∧
      (UInt8.ofNat (wlanFc p ds / 256) &&& 2 != 0) = decide (ds = 0x200) := by
  simp only [wlanFc]
  rcases hds with rfl | rfl | rfl <;> rcases hsubtype with h | h <;> rw [h] <;>
    cases p.mdata <;> by_cases henc : p.encrypt = .noPrivacy <;> simp only [henc] <;> decide

/-- The Michael code goes over the destination and the source, wherever they stand. -/
theorem micPseudo_wlanHdr {p : PktAttrib} {ds : ℕ} (hds : ds = 0 ∨ ds = 0x100 ∨ ds = 0x200)
    (hsubtype : p.subtype = wifiDataType ∨ p.subtype = wifiQosDataType) (a₁ a₂ a₃ : MacAddr)
    (qos : Bool) (seqnum : ℕ) (priority : UInt8) :
    micPseudo (wlanHdr p ds (a₁.toBytes ++ a₂.toBytes ++ a₃.toBytes) qos seqnum) priority =
      (if ds = 0x100 then a₃ else a₁).toBytes ++ (if ds = 0x200 then a₃ else a₂).toBytes ++
        [priority, 0, 0, 0] := by
  obtain ⟨hto, hfr⟩ := wlanFc_direction hds hsubtype
  have hu8 : Bytes.u8 (wlanHdr p ds (a₁.toBytes ++ a₂.toBytes ++ a₃.toBytes) qos seqnum) 1 =
      UInt8.ofNat (wlanFc p ds / 256) := rfl
  simp only [micPseudo, hu8, hto, hfr, decide_eq_true_eq]
  rcases hds with rfl | rfl | rfl <;> rfl

/-! ## The attributes of a data frame -/

def drawnIv (p : PktAttrib) (val : ℕ) : Bytes :=
  match p.encrypt with
  | .wep40 | .wep104 => wepIv val p.keyIdx
  | .tkip => tkipIv val (ivKeyIdx p)
  | _ => aesIv val (ivKeyIdx p)

section Attrib

variable {a : Adapter} {pkt : Bytes} {eapol : EapType} {p q : PktAttrib} {psta psta' : StaInfo}

theorem drawIv_iv (h : drawIv a psta p = some (q, psta')) (htx : txCipher p.encrypt) :
    q.iv = drawnIv p psta'.dot11txpn ∧
      (p.encrypt = .tkip → q.dot11tkiptxmickey = psta'.dot11tkiptxmickey) := by
  cases henc : p.encrypt
  case noPrivacy | tkipWtmic | sms4 | bipCmac128 | bipGmac128 | bipCmac256 | bipGmac256 =>
    rw [henc] at htx
    exact absurd htx Bool.false_ne_true
  all_goals simp only [drawIv, henc, Option.some.injEq, Prod.mk.injEq] at h
  case tkip =>
    split_ifs at h
    simp only [Option.some.injEq, Prod.mk.injEq] at h
    obtain ⟨rfl, rfl⟩ := h
    simp [drawnIv, henc]
  all_goals
    obtain ⟨rfl, rfl⟩ := h
    simp [drawnIv, henc]

/-- **The keys and the vector of an encrypted frame.** -/
theorem updateAttribSecInfo_keys (h : updateAttribSecInfo a p psta eapol = some (q, psta'))
    (htx : txCipher q.encrypt) :
    q.keyIdx = getKeyIdx a.securitypriv q.ra.isMcast ∧
      q.dot118021xUncstKey = keyBytes q.encrypt psta'.dot118021xUncstKey ∧
      q.iv = drawnIv q psta'.dot11txpn ∧
      (q.encrypt = .tkip → q.dot11tkiptxmickey = psta'.dot11tkiptxmickey) := by
  obtain ⟨p₁, hchoose, h⟩ := Option.bind_eq_some_iff.mp h
  obtain ⟨⟨p₂, psta₂⟩, hdraw, h⟩ := Option.map_eq_some_iff.mp h
  obtain ⟨rfl, rfl⟩ := Prod.mk.inj h
  obtain ⟨hpsta, hp₂, -⟩ := drawIv_some hdraw
  have henc : p₂.encrypt = p₁.encrypt := by rw [hp₂]
  obtain ⟨hiv, hmic⟩ := drawIv_iv hdraw (by rw [← henc]; exact htx)
  have hne : p₂.encrypt ≠ .noPrivacy := by
    intro hnone
    simp [hnone, txCipher] at htx
  have hkeyIdx : p₁.keyIdx = getKeyIdx a.securitypriv p₁.ra.isMcast := by
    simp only [chooseCipher] at hchoose
    split_ifs at hchoose <;> rw [← Option.some.inj hchoose]
    rw [henc, ← Option.some.inj hchoose] at hne
    exact absurd rfl hne
  refine ⟨?_, if_pos hne, ?_, fun htkip => hmic (henc ▸ htkip)⟩
  · show p₂.keyIdx = getKeyIdx a.securitypriv p₂.ra.isMcast
    rw [hp₂]
    exact hkeyIdx
  · show p₂.iv = _
    rw [hiv, drawnIv, drawnIv, ivKeyIdx, ivKeyIdx]
    rw [hp₂]

/-- An access point has resolved the addresses before: the frame goes to its destination, from the
address that the cell has its name from. -/
def Resolved (a : Adapter) (p : PktAttrib) : Prop :=
  a.fwState = .ap → p.ra = p.dst ∧ p.ta = a.bssid

/-- The header of a frame whose attributes were made. -/
theorem setQos_hdr (a : Adapter) (pkt : Bytes) (hhdrlen : p.hdrlen = wlanHdrA3Len)
    (hsubtype : p.subtype = wifiDataType) : DataHdr a (setQos a pkt p) := by
  -- whether the role writes a QoS control field
  have hrole (b : Bool) (hb : ∀ q : PktAttrib, q.qosEn = p.qosEn → ∀ ds addresses qos,
      hdrAddresses a q = some (ds, addresses, qos) → qos = b) (up : ℕ)
      (heq : setQos a pkt p = if b then { p with
        hdrlen := wlanHdrA3QosLen, subtype := wifiQosDataType, priority := up } else p) :
      DataHdr a (setQos a pkt p) := by
    rw [heq]
    cases b
    · refine ⟨.inl hsubtype, fun ds addresses qos h => ?_, fun ds addresses qos h => ?_⟩
      · rw [hb _ rfl _ _ _ h]
        exact hhdrlen
      · rw [hb _ rfl _ _ _ h]
        exact hsubtype
    · refine ⟨.inr rfl, fun ds addresses qos h => ?_, fun ds addresses qos h => ?_⟩
      · rw [hb _ rfl _ _ _ h]
        rfl
      · rw [hb _ rfl _ _ _ h]
        rfl
  cases hfw : a.fwState
  case none =>
    refine hrole a.qosOption ?_ _ (by simp only [setQos, hfw]; rfl)
    intro q _ ds addresses qos h
    simp only [hdrAddresses, hfw, reduceCtorEq] at h
  case station =>
    refine hrole a.qosOption ?_ _ (by simp only [setQos, hfw]; rfl)
    intro q _ ds addresses qos h
    simp only [hdrAddresses, hfw, Option.some.injEq, Prod.mk.injEq] at h
    exact h.2.2.symm
  case ap | adhoc =>
    refine hrole p.qosEn ?_ _ (by simp only [setQos, hfw]; rfl)
    intro q hq ds addresses qos h
    simp only [hdrAddresses, hfw, Option.some.injEq, Prod.mk.injEq] at h
    rw [← hq]
    exact h.2.2.symm

/-- **The keys, the vector and the header of a frame** whose attributes were made. -/
theorem updateAttrib_keys (h : updateAttrib a pkt eapol p = some (q, psta'))
    (htx : txCipher q.encrypt) :
    q.keyIdx = getKeyIdx a.securitypriv q.ra.isMcast ∧
      q.dot118021xUncstKey = keyBytes q.encrypt psta'.dot118021xUncstKey ∧
      q.iv = drawnIv q psta'.dot11txpn ∧
      (q.encrypt = .tkip → q.dot11tkiptxmickey = psta'.dot11tkiptxmickey) ∧ DataHdr a q := by
  obtain ⟨psta, hsta, h⟩ := Option.bind_eq_some_iff.mp h
  split_ifs at h with hasoc
  obtain ⟨⟨p₁, psta₁⟩, hsec, h⟩ := Option.map_eq_some_iff.mp h
  have hhdr := setQos_hdr a pkt (p := { p₁ with
    pktHdrlen := ethHlen, hdrlen := wlanHdrA3Len, subtype := wifiDataType, priority := 0
    qosEn := psta₁.qosOption, psta := some (staKey p₁.ra), ackPolicy := 0, mdata := false
    eosp := false }) rfl rfl
  obtain ⟨hdrlen, subtype, priority, hqos, hhdrlen⟩ := setQos_eq a pkt { p₁ with
    pktHdrlen := ethHlen, hdrlen := wlanHdrA3Len, subtype := wifiDataType, priority := 0
    qosEn := psta₁.qosOption, psta := some (staKey p₁.ra), ackPolicy := 0, mdata := false
    eosp := false }
  simp only [hqos] at h hhdr
  obtain ⟨rfl, rfl⟩ := Prod.mk.inj h
  obtain ⟨hkeyIdx, hkey, hiv, hmic⟩ := updateAttribSecInfo_keys hsec htx
  exact ⟨hkeyIdx, hkey, hiv, hmic, ⟨hhdr.subtype, hhdr.hdrlen, hhdr.qos⟩⟩

/-- The receiver and the transmitter address of the header are those of the attributes. -/
theorem updateAttrib_addresses {ds : ℕ} {addresses : Bytes} {qos : Bool} (hap : Resolved a p)
    (h : updateAttrib a pkt eapol p = some (q, psta'))
    (hhdr : hdrAddresses a q = some (ds, addresses, qos)) :
    ∃ a₃, addresses = q.ra.toBytes ++ q.ta.toBytes ++ MacAddr.toBytes a₃ := by
  obtain ⟨psta, hsta, h⟩ := Option.bind_eq_some_iff.mp h
  split_ifs at h with hasoc
  obtain ⟨⟨p₁, psta₁⟩, hsec, h⟩ := Option.map_eq_some_iff.mp h
  obtain ⟨-, hp₁, -⟩ := updateAttribSecInfo_some hsec
  obtain ⟨hdrlen, subtype, priority, hqos, -⟩ := setQos_eq a pkt { p₁ with
    pktHdrlen := ethHlen, hdrlen := wlanHdrA3Len, subtype := wifiDataType, priority := 0
    qosEn := psta₁.qosOption, psta := some (staKey p₁.ra), ackPolicy := 0, mdata := false
    eosp := false }
  simp only [hqos] at h
  obtain ⟨rfl, rfl⟩ := Prod.mk.inj h
  rw [hp₁] at hhdr ⊢
  rw [Resolved] at hap
  cases hfw : a.fwState <;> simp only [hdrAddresses, setAddresses, hfw, reduceCtorEq,
    Option.some.injEq, Prod.mk.injEq] at hhdr hap ⊢
  case ap =>
    obtain ⟨hra, hta⟩ := hap trivial
    refine ⟨p.src, ?_⟩
    rw [hra, hta]
    exact hhdr.2.1.symm
  all_goals exact ⟨_, hhdr.2.1.symm⟩

/-- **An encrypted frame on its way**, with the station whose keys it took. -/
structure Outgoing (a : Adapter) (psta : StaInfo) (f : XmitFrame) : Prop where
  ready : Ready f.attrib f.pkt
  hdr : DataHdr a f.attrib
  addresses : ∀ ds addresses qos, hdrAddresses a f.attrib = some (ds, addresses, qos) →
    ∃ a₃, addresses = f.attrib.ra.toBytes ++ f.attrib.ta.toBytes ++ MacAddr.toBytes a₃
  uncstKey : f.attrib.dot118021xUncstKey = keyBytes f.attrib.encrypt psta.dot118021xUncstKey
  iv : f.attrib.iv = drawnIv f.attrib psta.dot11txpn
  micKey : f.attrib.encrypt = .tkip → f.attrib.dot11tkiptxmickey = psta.dot11tkiptxmickey

theorem updateAttrib_outgoing {f : XmitFrame} {mdata eosp : Bool} (hap : Resolved a p)
    (h : updateAttrib a f.pkt eapol p = some (q, psta')) (htx : txCipher q.encrypt)
    (hf : f.attrib = { doQueueSelect q with mdata := mdata, eosp := eosp }) :
    Outgoing a psta' f := by
  obtain ⟨-, -, -, -, -, -, -, hready⟩ := updateAttrib_some h
  obtain ⟨-, hkey, hiv, hmic, hhdr⟩ := updateAttrib_keys h htx
  obtain ⟨qsel, priority, hq⟩ : ∃ qsel priority,
      f.attrib = { q with qsel := qsel, priority := priority, mdata := mdata, eosp := eosp } := by
    rw [hf, doQueueSelect]
    split
    · exact ⟨_, _, rfl⟩
    · exact ⟨_, _, rfl⟩
  have haddresses : hdrAddresses a f.attrib = hdrAddresses a q := by
    rw [hq]
    rfl
  constructor
  · rw [hq]
    exact ⟨hready.1, hready.2, hready.3, hready.4, hready.5⟩
  · constructor
    · rw [hq]
      exact hhdr.subtype
    · rw [haddresses, hq]
      exact hhdr.hdrlen
    · rw [haddresses, hq]
      exact hhdr.qos
  · rw [haddresses, hq]
    exact fun ds addresses qos => updateAttrib_addresses hap h
  · rw [hq]
    exact hkey
  · rw [hq]
    exact hiv
  · rw [hq]
    exact hmic

end Attrib

/-- **What the cipher is given**: the data, and the Michael code of TKIP. -/
def plainBody (c : TxCrypto) (key : Bytes) (p : PktAttrib) (hdr payload : Bytes) : Bytes :=
  let data := putSnap p.etherType ++ payload
  data ++ if p.encrypt = .tkip then c.secmic key (micPseudo hdr (micPriority p) ++ data) else []

@[simp] theorem length_plainBody (c : TxCrypto) (key : Bytes) (p : PktAttrib)
    (hdr payload : Bytes) : (plainBody c key p hdr payload).length =
      8 + payload.length + if p.encrypt = .tkip then 8 else 0 := by
  simp only [plainBody, List.length_append, length_putSnap]
  split_ifs
  · rw [c.length_secmic]
  · rfl

section Whole

variable {c : TxCrypto} {a : Adapter} {m : Mem} {f : XmitFrame} {p : PktAttrib} {hdr body : Bytes}

/-- The parts of a fragment as the loop leaves it. -/
theorem cut_read (body : Bytes) {start n : ℕ} (hn : 2 ≤ n)
    (hclear : (m (start + 1) ||| 0x04) &&& 0xfb = m (start + 1)) :
    read (clearMFrag (write (setMFrag m start) (start + n) body) start) start n = read m start n ∧
      read (clearMFrag (write (setMFrag m start) (start + n) body) start) (start + n) body.length =
        body := by
  have hbyte : write (setMFrag m start) (start + n) body (start + 1) = m (start + 1) ||| 0x04 := by
    rw [write_of_lt (by omega), setMFrag, write_singleton_self]
  constructor
  · rw [clearMFrag, hbyte, hclear, read_write_singleton, read_write_of_disjoint (.inl le_rfl),
      setMFrag, read_write_singleton, List.set_set]
    apply List.ext_getElem
    · simp
    · intro i _ _
      rw [List.getElem_set]
      split_ifs with hi
      · subst hi
        rw [getElem_read]
      · rfl
  · rw [clearMFrag, read_write_of_disjoint (.inr (by simp; omega))]
    exact read_write

theorem addmic_read {start : ℕ} {m' : Mem} {q : PktAttrib} (halign : f.memStart % 4 = 0)
    (hhdrlen : 24 ≤ f.attrib.hdrlen) (hnr : f.attrib.nrFrags = 1)
    (hsize : f.attrib.lastTxcmdsz = f.attrib.hdrlen + f.attrib.ivLen +
      (putSnap f.attrib.etherType ++ f.payload).length + icvRoom f.attrib)
    (hstart : start = f.memStart + f.attrib.hdrlen + f.attrib.ivLen)
    (hdata : read m start (putSnap f.attrib.etherType ++ f.payload).length =
      putSnap f.attrib.etherType ++ f.payload)
    (hthree : ThreeAddr (read m f.memStart f.attrib.hdrlen))
    (h : xmitframeAddmic c a m f = some (m', q)) :
    let plain := plainBody c (micKey a f.attrib) f.attrib (read m f.memStart f.attrib.hdrlen)
      f.payload
    AgreeBelow start m m' ∧ read m' start plain.length = plain ∧
      q = { f.attrib with lastTxcmdsz :=
        f.attrib.hdrlen + f.attrib.ivLen + plain.length + icvRoom f.attrib } := by
  have haligned : rnd4 f.memStart = f.memStart := by
    rw [rnd4, if_pos halign]
    omega
  simp only [xmitframeAddmic] at h
  split_ifs at h with htkip hkey
  · rw [← XmitFrame.memStart, hnr] at h
    simp only [micData, haligned, if_true, Option.some.injEq, Prod.mk.injEq] at h
    obtain ⟨rfl, rfl⟩ := h
    have hlen : f.attrib.lastTxcmdsz - f.attrib.hdrlen - f.attrib.ivLen - icvRoom f.attrib =
        (putSnap f.attrib.etherType ++ f.payload).length := by omega
    rw [hlen, ← hstart, hdata, micHeader_eq hhdrlen hthree]
    simp only [plainBody, htkip, if_true, List.length_append, c.length_secmic]
    refine ⟨agreeBelow_write (by omega), ?_, ?_⟩
    · rw [← List.length_append, read_add, read_write_of_disjoint (.inl le_rfl), hdata,
        ← c.length_secmic (micKey a f.attrib) (micPseudo (read m f.memStart f.attrib.hdrlen)
          (micPriority f.attrib) ++ (putSnap f.attrib.etherType ++ f.payload))]
      congr 1
      exact read_write
    · rw [hsize, List.length_append]
      simp only [PktAttrib.mk.injEq, true_and, and_true]
      omega
  · obtain ⟨rfl, rfl⟩ := Prod.mk.inj (Option.some.inj h)
    simp only [plainBody, htkip, if_false, List.append_nil]
    refine ⟨AgreeBelow.refl _ _, hdata, ?_⟩
    rw [← hsize]

/-- A software cipher leaves the header and the initialisation vector, and puts its text in the
place of the data. -/
theorem sealFragment_read {start length : ℕ} {plain : Bytes}
    (hprot : ¬(p.encrypt = .aes ∨ p.encrypt = .ccmp256))
    (hplain : read m (start + p.hdrlen + p.ivLen) length = plain)
    (hbody : c.encipher p.encrypt (swKey a p) p.ta (read m start p.hdrlen)
      (read m (start + p.hdrlen) p.ivLen) plain = some body) :
    read (sealFragment c a p m start length) start (p.hdrlen + p.ivLen + body.length) =
      read m start p.hdrlen ++ read m (start + p.hdrlen) p.ivLen ++ body := by
  have hprot : (p.encrypt = .aes || p.encrypt = .ccmp256) = false := by simpa using hprot
  simp only [sealFragment, hplain, hbody, hprot, Bool.false_eq_true, if_false]
  rw [read_add, read_add, read_write_of_disjoint (.inl (by omega)),
    read_write_of_disjoint (.inl le_rfl), ← Nat.add_assoc]
  congr 1
  exact read_write

theorem swencrypt_read {plain : Bytes} (hnr : f.attrib.nrFrags = 1) (hsw : f.attrib.bswenc = true)
    (htx : txCipher f.attrib.encrypt)
    (hprot : ¬(f.attrib.encrypt = .aes ∨ f.attrib.encrypt = .ccmp256))
    (hsize : f.attrib.lastTxcmdsz =
      f.attrib.hdrlen + f.attrib.ivLen + plain.length + f.attrib.icvLen)
    (hplain : read m (f.memStart + f.attrib.hdrlen + f.attrib.ivLen) plain.length = plain)
    (hbody : c.encipher f.attrib.encrypt (swKey a f.attrib) f.attrib.ta
      (read m f.memStart f.attrib.hdrlen) (read m (f.memStart + f.attrib.hdrlen) f.attrib.ivLen)
      plain = some body) :
    read (xmitframeSwencrypt c a m f) f.memStart (f.attrib.hdrlen + f.attrib.ivLen + body.length) =
      read m f.memStart f.attrib.hdrlen ++
        read m (f.memStart + f.attrib.hdrlen) f.attrib.ivLen ++ body := by
  have hlen : f.attrib.lastTxcmdsz - f.attrib.hdrlen - f.attrib.ivLen - f.attrib.icvLen =
      plain.length := by omega
  have htx : txCipher f.attrib.encrypt = true := htx
  simp only [xmitframeSwencrypt, hsw, htx, hnr, encryptLoop, Bool.and_self, if_true, hlen]
  exact sealFragment_read hprot hplain hbody

theorem coalesceFragments_octets {r : Coalesced} (hready : Ready f.attrib f.pkt)
    (hone : OneFragment a f) (halign : f.memStart % 4 = 0) (hsw : f.attrib.bswenc = true)
    (htx : txCipher f.attrib.encrypt) (hprot : ¬(f.attrib.encrypt = .aes ∨
      f.attrib.encrypt = .ccmp256)) (hhdr : read m f.memStart f.attrib.hdrlen = hdr)
    (hclear : (hdr.u8 1 ||| 0x04) &&& 0xfb = hdr.u8 1) (hthree : ThreeAddr hdr)
    (h : coalesceFragments c a m f = some r) (hres : r.res = true)
    (hbody : c.encipher f.attrib.encrypt (swKey a f.attrib) f.attrib.ta hdr
      (octets f.attrib.iv f.attrib.ivLen)
      (plainBody c (micKey a f.attrib) f.attrib hdr f.payload) = some body) :
    read r.mem f.memStart (wlanPktSize f.attrib) =
      hdr ++ octets f.attrib.iv f.attrib.ivLen ++ body := by
  have hhdrlen := hready.hdrlen_ge
  subst hhdr
  rw [u8_read (by omega)] at hclear
  have hicv : icvRoom f.attrib = f.attrib.encrypt.icvLen := by
    rw [icvRoom, if_pos hsw, hready.icvLen, if_pos htx]
  have hpktlen := hready.length_payload
  simp only [coalesceFragments] at h
  rw [← XmitFrame.payload, ← XmitFrame.memStart, coalesceLoop_one hready hone] at h
  simp only [Option.map_some, Option.some.injEq] at h
  obtain ⟨hcutHdr, hcutBody⟩ := cut_read (wholeBody f.attrib f.payload)
    (show 2 ≤ f.attrib.hdrlen by omega) hclear
  generalize clearMFrag (write (setMFrag m f.memStart) (f.memStart + f.attrib.hdrlen)
    (wholeBody f.attrib f.payload)) f.memStart = m₁ at h hcutHdr hcutBody
  split at h
  · subst h
    exact absurd hres Bool.false_ne_true
  rename_i m₂ q hmic
  subst h
  -- what the loop wrote behind the header
  have hlen := length_wholeBody f.attrib f.payload
  have hsplit : wholeBody f.attrib f.payload = octets f.attrib.iv f.attrib.ivLen ++
      (putSnap f.attrib.etherType ++ f.payload) ++ octets f.attrib.icv (icvRoom f.attrib) := by
    simp only [wholeBody, List.append_assoc]
  have hiv : read m₁ (f.memStart + f.attrib.hdrlen) f.attrib.ivLen =
      octets f.attrib.iv f.attrib.ivLen := by
    rw [← take_read (show f.attrib.ivLen ≤ (wholeBody f.attrib f.payload).length by omega),
      hcutBody, hsplit, List.append_assoc, List.take_left' (length_octets _ _)]
  have hdata : read m₁ (f.memStart + f.attrib.hdrlen + f.attrib.ivLen)
      (putSnap f.attrib.etherType ++ f.payload).length =
        putSnap f.attrib.etherType ++ f.payload := by
    have hle : f.attrib.ivLen + (putSnap f.attrib.etherType ++ f.payload).length ≤
        (wholeBody f.attrib f.payload).length := by
      rw [hlen, List.length_append, length_putSnap]
      omega
    have hpart := take_read (m := m₁) (a := f.memStart + f.attrib.hdrlen) hle
    rw [hcutBody, read_add, hiv, hsplit, List.take_left'
      (by rw [List.length_append, length_octets])] at hpart
    exact (List.append_cancel_left hpart).symm
  have hfree : f.attrib.hdrlen + f.attrib.ivLen + 8 + icvRoom f.attrib + f.attrib.pktlen =
      f.attrib.hdrlen + f.attrib.ivLen + (putSnap f.attrib.etherType ++ f.payload).length +
        icvRoom f.attrib := by
    rw [List.length_append, length_putSnap, hpktlen]
    omega
  obtain ⟨hbelow, hplain, rfl⟩ := addmic_read
    (f := { f with attrib := { f.attrib with
      nrFrags := 1
      lastTxcmdsz := f.attrib.hdrlen + f.attrib.ivLen + 8 + icvRoom f.attrib + f.attrib.pktlen } })
    halign hhdrlen rfl hfree rfl hdata (by
      show ThreeAddr (read m₁ f.memStart f.attrib.hdrlen)
      rw [hcutHdr]
      exact hthree) hmic
  have hpart (b n : ℕ) (h : b + n ≤ f.memStart + f.attrib.hdrlen + f.attrib.ivLen) :
      read m₂ b n = read m₁ b n := hbelow.read_eq h
  have hsize := c.length_encipher hbody
  have hwhole : wlanPktSize f.attrib = f.attrib.hdrlen + f.attrib.ivLen + body.length := by
    rw [hsize, length_plainBody, hpktlen, wlanPktSize, hicv]
    omega
  have hhdr₂ : read m₂ f.memStart f.attrib.hdrlen = read m f.memStart f.attrib.hdrlen := by
    rw [hpart _ _ (by omega), hcutHdr]
  have hiv₂ : read m₂ (f.memStart + f.attrib.hdrlen) f.attrib.ivLen =
      octets f.attrib.iv f.attrib.ivLen := by
    rw [hpart _ _ (by omega), hiv]
  generalize hdef : plainBody c (micKey a f.attrib) f.attrib
    (read m f.memStart f.attrib.hdrlen) f.payload = plain at hbody
  have hplain : read m₂ (f.memStart + f.attrib.hdrlen + f.attrib.ivLen) plain.length = plain := by
    rw [← hdef, ← hcutHdr]
    exact hplain
  rw [← hhdr₂, ← hiv₂] at hbody ⊢
  rw [hwhole]
  refine swencrypt_read (f := { f with attrib := { f.attrib with
    nrFrags := 1
    lastTxcmdsz := _ } }) rfl hsw htx hprot ?_ hplain hbody
  have hsize : (plainBody c (micKey a f.attrib) f.attrib (read m₁ f.memStart f.attrib.hdrlen)
      f.payload).length = plain.length := by
    rw [← hdef, length_plainBody, length_plainBody]
  rw [hready.icvLen, if_pos htx, ← hicv]
  exact congrArg (f.attrib.hdrlen + f.attrib.ivLen + · + icvRoom f.attrib) hsize

/-- **The whole MPDU**: the header, the initialisation vector, and what the cipher made of the data
with its code. -/
theorem coalesce_octets {r : Coalesced} (hready : Ready f.attrib f.pkt) (hone : OneFragment a f)
    (halign : f.memStart % 4 = 0) (hdata : DataHdr a f.attrib) (hsw : f.attrib.bswenc = true)
    (htx : txCipher f.attrib.encrypt)
    (hprot : ¬(f.attrib.encrypt = .aes ∨ f.attrib.encrypt = .ccmp256))
    (h : rtwXmitframeCoalesce c a m f = some r) (hres : r.res = true) :
    ∃ ds addresses qos seqnum, hdrAddresses a f.attrib = some (ds, addresses, qos) ∧
      ∀ body, c.encipher f.attrib.encrypt (swKey a f.attrib) f.attrib.ta
          (wlanHdr f.attrib ds addresses qos seqnum) (octets f.attrib.iv f.attrib.ivLen)
          (plainBody c (micKey a f.attrib) f.attrib (wlanHdr f.attrib ds addresses qos seqnum)
            f.payload) = some body →
        read r.mem f.memStart (wlanPktSize f.attrib) = wlanHdr f.attrib ds addresses qos seqnum ++
          octets f.attrib.iv f.attrib.ivLen ++ body := by
  rw [rtwXmitframeCoalesce, ← XmitFrame.memStart] at h
  rcases hmake : rtwMakeWlanhdr a m f.memStart f.attrib with ⟨_ | ⟨p, a'⟩, m'⟩ <;> rw [hmake] at h
  · obtain rfl := Option.some.inj h
    exact absurd hres Bool.false_ne_true
  obtain ⟨hp, hkeys⟩ := rtwMakeWlanhdr_some (congrArg Prod.fst hmake)
  obtain ⟨ds, addresses, qos, haddresses, hread⟩ :=
    rtwMakeWlanhdr_read hdata (congrArg Prod.fst hmake)
  rw [hmake] at hread
  refine ⟨ds, addresses, qos, p.seqnum, haddresses, fun body hbody => ?_⟩
  obtain ⟨hds, hlen⟩ := hdrAddresses_some haddresses
  obtain ⟨hclear, hthree⟩ := wlanHdr_flags hds hdata.subtype addresses qos p.seqnum
  generalize hseq : p.seqnum = seqnum at hp hread hbody hclear hthree
  generalize hampdu : p.ampduEn = ampduEn at hp
  subst hp
  refine coalesceFragments_octets
    (f := { f with attrib := { f.attrib with seqnum := seqnum, ampduEn := ampduEn } })
    ⟨hready.1, hready.2, hready.3, hready.4, hready.5⟩ ?_ halign hsw htx hprot hread hclear hthree h
    hres ?_
  · rw [OneFragment, mpduLen, hkeys.fragLen]
    exact hone
  · rw [swKey, micKey, hkeys.securitypriv]
    exact hbody

end Whole

end Rtl88x2eu.Xmit
