import Mathlib.Algebra.Group.Nat.Even
import Rtl88x2eu.Lib.Loop
import Rtl88x2eu.Lib.OnesSum
import Rtl88x2eu.Recv.Attrib

/-!
# Checksums behind a rewritten field

The two places of `rtw_br_ext.c` that change a field under a checksum: `dhcp_flag_bcast` sets the
broadcast flag of a DHCP request and adjusts the UDP checksum, and the `NAT25_INSERT` branch for
IPv6 replaces a link-layer address option and computes the ICMPv6 checksum anew.

## Main definitions

* `dhcpFlagBcast`
* `UdpVerifies`, `UdpKept`: the checksum of a datagram, and what a rewrite has to keep
* `nat25InsertIpv6`, `Icmp6Verifies`
* `DhcpHarmless`, `NdHarmless`: when the rewrites keep the checksums

## Main results

* `udpKept_iff`: the flags word is added whole, so it must have been zero
* `icmp6Kept_iff`: the message is measured by the payload length with its octets swapped
* `checksumsKept_iff`: both
-/

namespace Rtl88x2eu

open OnesSum

/-! ## Parts of a frame -/

def segment (p : Bytes) (a n : ℕ) : Bytes := (p.drop a).take n

theorem length_segment {p : Bytes} {a n : ℕ} (h : a + n ≤ p.length) :
    (segment p a n).length = n := by
  rw [segment, List.length_take, List.length_drop]
  omega

theorem u8_segment (p : Bytes) (a : ℕ) {n i : ℕ} (h : i < n) :
    (segment p a n).u8 i = p.u8 (a + i) := by
  simp [segment, Bytes.u8, List.getD_eq_getElem?_getD, h]

theorem be16_segment (p : Bytes) (a : ℕ) {n i : ℕ} (h : i + 1 < n) :
    (segment p a n).be16 i = p.be16 (a + i) := by
  rw [Bytes.be16, Bytes.be16, u8_segment p a (by omega), u8_segment p a h, add_assoc]

theorem u8_overwrite_of_lt {p q : Bytes} {i j : ℕ} (hi : i ≤ p.length) (hj : j < i) :
    (p.overwrite i q).u8 j = p.u8 j := by
  have hlen : j < (p.take i).length := by
    rw [List.length_take]
    omega
  simp [Bytes.overwrite, Bytes.u8, List.getD_eq_getElem?_getD, List.append_assoc,
    List.getElem?_append_left hlen, hj]

theorem be16_overwrite_of_lt {p q : Bytes} {i j : ℕ} (hi : i ≤ p.length) (hj : j + 1 < i) :
    (p.overwrite i q).be16 j = p.be16 j := by
  rw [Bytes.be16, Bytes.be16, u8_overwrite_of_lt hi (by omega), u8_overwrite_of_lt hi hj]

/-- What is written behind a part leaves it alone. -/
theorem segment_overwrite_of_le {p q : Bytes} {a n i : ℕ} (hi : i ≤ p.length) (h : a + n ≤ i) :
    segment (p.overwrite i q) a n = segment p a n := by
  have hlen : a + n ≤ (p.take i).length := by
    rw [List.length_take]
    omega
  rw [segment, segment, Bytes.overwrite, List.append_assoc,
    List.drop_append_of_le_length (by omega),
    List.take_append_of_le_length (by rw [List.length_drop]; omega), List.drop_take,
    List.take_take, Nat.min_eq_left (by omega)]

/-- What is written inside a part. -/
theorem segment_overwrite {p q : Bytes} {a n i : ℕ} (hp : a + n ≤ p.length)
    (h : i + q.length ≤ n) :
    segment (p.overwrite (a + i) q) a n = (segment p a n).overwrite i q := by
  have hlen : (p.take (a + i)).length = a + i := by
    rw [List.length_take]
    omega
  have hdrop : (p.overwrite (a + i) q).drop a =
      (p.drop a).take i ++ (q ++ (p.drop a).drop (i + q.length)) := by
    rw [Bytes.overwrite, List.append_assoc, List.drop_append_of_le_length (by omega),
      List.drop_take, List.drop_drop, Nat.add_sub_cancel_left, add_assoc]
  have htake : ((p.drop a).take i).length = i := by
    rw [List.length_take, List.length_drop]
    omega
  rw [segment, hdrop, List.take_append, List.take_append, htake,
    List.take_of_length_le (show ((p.drop a).take i).length ≤ n by omega),
    List.take_of_length_le (show q.length ≤ n - i by omega), segment, Bytes.overwrite,
    List.take_take,
    Nat.min_eq_left (by omega), List.drop_take, List.append_assoc, Nat.sub_sub]

theorem wordSum_overwrite {s : Bytes} {i : ℕ} (hi : Even i) (h : i + 2 ≤ s.length) (x y : UInt8) :
    wordSum (s.overwrite i [x, y]) + s.be16 i = wordSum s + (256 * x.toNat + y.toNat) := by
  have hsplit : s = s.take i ++ s.u8 i :: s.u8 (i + 1) :: s.drop (i + 2) := by
    rw [Bytes.u8, Bytes.u8, List.getD_eq_getElem _ _ (by omega),
      List.getD_eq_getElem _ _ (by omega), List.getElem_cons_drop, List.getElem_cons_drop,
      List.take_append_drop]
  have htake : (s.take i).length = i := by
    rw [List.length_take]
    omega
  have hreplace := wordSum_replace (p := s.take i) (r := s.drop (i + 2)) (by rwa [htake])
    (s.u8 i) (s.u8 (i + 1)) x y
  rw [← hsplit] at hreplace
  simpa [Bytes.overwrite, Bytes.be16] using hreplace

/-! ## DHCP requests -/

/-- Where the transport header begins: `iph->ihl << 2` octets into the IP packet. -/
def transportOffset (skb : Bytes) : ℕ := 14 + 4 * ((skb.u8 14).toNat % 16)

/-- A big-endian 32-bit load. -/
def be32 (p : Bytes) (i : ℕ) : ℕ := 65536 * p.be16 i + p.be16 (i + 2)

/-- A DHCP request that asks for a unicast answer, as `dhcp_flag_bcast` recognises it: IP, UDP, from
`CLIENT_PORT` to `SERVER_PORT`, with the magic word and no `BROADCAST_FLAG`. -/
def isUnicastRequest (skb : Bytes) : Bool :=
  let udph := transportOffset skb
  let dhcph := udph + 8
  skb.be16 12 = 0x0800 && skb.u8 23 = 17 && skb.be16 udph = 68 && skb.be16 (udph + 2) = 67 &&
    be32 skb (dhcph + 236) = 0x63825363 && skb.be16 (dhcph + 10) &&& 0x8000 = 0

/-- `dhcp_flag_bcast`. The words are loaded and stored as the machine has them, in little-endian
order. -/
def dhcpFlagBcast (dhcpBcstDisable : Bool) (skb : Bytes) : Bytes :=
  if dhcpBcstDisable || !isUnicastRequest skb then skb
  else
    let udph := transportOffset skb
    let dhcph := udph + 8
    let flags := skb.le16 (dhcph + 10) ||| 0x0080
    let skb := skb.overwrite (dhcph + 10) (Bytes.ofLe16 flags)
    -- recalculate checksum
    let sum := (65535 - skb.le16 (udph + 6)) + flags
    skb.overwrite (udph + 6) (Bytes.ofLe16 (complement sum))

def udpLen (skb : Bytes) : ℕ := skb.be16 (transportOffset skb + 4)

def udpCheck (skb : Bytes) : ℕ := skb.be16 (transportOffset skb + 6)

def dhcpFlags (skb : Bytes) : ℕ := skb.be16 (transportOffset skb + 18)

def udpSum (skb : Bytes) : ℕ :=
  wordSum (segment skb 26 8) + 17 + udpLen skb +
    wordSum (segment skb (transportOffset skb) (udpLen skb))

def UdpVerifies (skb : Bytes) : Prop := udpSum skb % 65535 = 0

/-- A rewrite keeps the checksum: a zero stays zero, and another verifies if it did. -/
def UdpKept (skb skb' : Bytes) : Prop :=
  if udpCheck skb = 0 then udpCheck skb' = 0 else UdpVerifies skb → UdpVerifies skb'

/-- An Ethernet frame that carries a whole DHCP message, up to the magic word at least, behind an
IP header of 20 octets or more. -/
structure DhcpFrame (skb : Bytes) : Prop where
  ihl : 5 ≤ (skb.u8 14).toNat % 16
  len : 248 ≤ udpLen skb
  fits : transportOffset skb + udpLen skb ≤ skb.length

theorem flags_or {x : ℕ} (hx : x < 128) (y : ℕ) :
    x + 256 * y ||| 0x0080 = x + 128 + 256 * y := by
  have hword : x + 256 * y = 2 ^ 8 * y ||| x := by
    rw [← Nat.two_pow_add_eq_or_of_lt (by omega)]
    omega
  have hbit : x ||| 0x0080 = 2 ^ 7 * 1 + x := by
    rw [Nat.two_pow_add_eq_or_of_lt (by omega), Nat.or_comm]
  rw [hword, Nat.or_assoc, hbit, ← Nat.two_pow_add_eq_or_of_lt (by omega)]
  omega

theorem and_broadcast_eq_zero {x y : ℕ} (hx : x < 256) (hy : y < 256) :
    256 * x + y &&& 0x8000 = 0 ↔ x < 128 := by
  have hbit : 256 * x + y &&& 2 ^ 15 = ((256 * x + y).testBit 15).toNat * 2 ^ 15 :=
    Nat.and_two_pow _ _
  rw [show (0x8000 : ℕ) = 2 ^ 15 from rfl, hbit, Nat.testBit_eq_decide_div_mod_eq]
  simp only [Nat.reducePow, mul_eq_zero, Bool.toNat_eq_zero, decide_eq_false_iff_not]
  omega

theorem ofLe16_toNat {n : ℕ} (h : n < 65536) :
    256 * (UInt8.ofNat n).toNat + (UInt8.ofNat (n / 256)).toNat = 256 * (n % 256) + n / 256 := by
  simp only [UInt8.toNat_ofNat']
  omega

section Request

variable {skb : Bytes} {i : ℕ} {q : Bytes}

theorem DhcpFrame.offset (h : DhcpFrame skb) : 34 ≤ transportOffset skb := by
  have := h.ihl
  unfold transportOffset
  omega

theorem DhcpFrame.offset_overwrite (h : DhcpFrame skb) (hi : 6 ≤ i) (hin : i + 2 ≤ udpLen skb) :
    transportOffset (skb.overwrite (transportOffset skb + i) q) = transportOffset skb := by
  have := h.offset
  have := h.fits
  rw [transportOffset, u8_overwrite_of_lt (by omega) (by omega), ← transportOffset]

theorem DhcpFrame.len_overwrite (h : DhcpFrame skb) (hi : 6 ≤ i) (hin : i + 2 ≤ udpLen skb) :
    udpLen (skb.overwrite (transportOffset skb + i) q) = udpLen skb := by
  have := h.fits
  rw [udpLen, h.offset_overwrite hi hin, be16_overwrite_of_lt (by omega) (by omega), ← udpLen]

theorem DhcpFrame.sum_overwrite (h : DhcpFrame skb) (hi : 6 ≤ i) (hin : i + 2 ≤ udpLen skb)
    (heven : Even i) {n : ℕ} (hn : n < 65536) :
    udpSum (skb.overwrite (transportOffset skb + i) (Bytes.ofLe16 n)) +
        skb.be16 (transportOffset skb + i) =
      udpSum skb + (256 * (n % 256) + n / 256) := by
  have hoff := h.offset
  have hfits := h.fits
  have hword := wordSum_overwrite (s := segment skb (transportOffset skb) (udpLen skb)) heven
    (by rw [length_segment hfits]; exact hin) (UInt8.ofNat n) (UInt8.ofNat (n / 256))
  rw [be16_segment _ _ (by omega), ofLe16_toNat hn] at hword
  have hseg : segment (skb.overwrite (transportOffset skb + i) (Bytes.ofLe16 n))
      (transportOffset skb) (udpLen skb) =
      (segment skb (transportOffset skb) (udpLen skb)).overwrite i
        [UInt8.ofNat n, UInt8.ofNat (n / 256)] :=
    segment_overwrite hfits hin
  rw [udpSum, h.offset_overwrite hi hin, h.len_overwrite hi hin, hseg,
    segment_overwrite_of_le (by omega) (by omega), udpSum]
  omega

/-- A word behind the UDP length is replaced, and the frame is still a DHCP message. -/
theorem DhcpFrame.overwrite (h : DhcpFrame skb) (hi : 6 ≤ i) (hin : i + 2 ≤ udpLen skb)
    (hq : q.length = 2) :
    DhcpFrame (skb.overwrite (transportOffset skb + i) q) := by
  have hoff := h.offset
  have hfits := h.fits
  refine ⟨?_, ?_, ?_⟩
  · rw [u8_overwrite_of_lt (by omega) (by omega)]
    exact h.ihl
  · rw [h.len_overwrite hi hin]
    exact h.len
  · rw [h.len_overwrite hi hin, h.offset_overwrite hi hin, length_overwrite (by omega)]
    exact hfits

end Request

theorem be16_overwrite {p : Bytes} {i : ℕ} (h : i + 2 ≤ p.length) (x y : UInt8) :
    (p.overwrite i [x, y]).be16 i = 256 * x.toNat + y.toNat := by
  have hlen : (p.take i).length = i := by
    rw [List.length_take]
    omega
  have hword (k : ℕ) : (p.overwrite i [x, y]).u8 (i + k) =
      Bytes.u8 ([x, y] ++ p.drop (i + 2)) k := by
    rw [Bytes.overwrite, List.append_assoc, Bytes.u8, List.getD_append_right _ _ _ _ (by omega),
      hlen, Nat.add_sub_cancel_left]
    rfl
  rw [Bytes.be16, hword 1, show (p.overwrite i [x, y]).u8 i = _ from hword 0]
  rfl

/-- The sum adjusted by the whole new flags word: `f` are the old flags, `c` is the old checksum. -/
theorem adjusted_modEq {x y a b : ℕ} (hx : x < 128) (hy : y < 256) (ha : a < 256) (hb : b < 256) :
    let n := complement ((65535 - (a + 256 * b)) + (x + 128 + 256 * y))
    256 * (n % 256) + n / 256 + (256 * x + y + 0x8000) ≡ 256 * a + b [MOD 65535] ∧
      (256 * a + b = 0 → 256 * (n % 256) + n / 256 = 65535 - (256 * x + y + 0x8000)) := by
  intro n
  have hlt := foldCarries_lt ((65535 - (a + 256 * b)) + (x + 128 + 256 * y))
  have hmod := foldCarries_modEq ((65535 - (a + 256 * b)) + (x + 128 + 256 * y))
  have hpos : 0 < foldCarries ((65535 - (a + 256 * b)) + (x + 128 + 256 * y)) :=
    foldCarries_pos (by omega)
  have hn : n = 65535 - foldCarries ((65535 - (a + 256 * b)) + (x + 128 + 256 * y)) := rfl
  unfold Nat.ModEq at *
  refine ⟨by omega, fun hzero => by omega⟩

/-- **The checksum of the rewritten datagram** is short of the old flags, and a zero checksum turns
into the complement of the new ones. -/
theorem udpSum_dhcpFlagBcast {skb : Bytes} (h : DhcpFrame skb) (hreq : isUnicastRequest skb) :
    udpSum (dhcpFlagBcast false skb) + dhcpFlags skb ≡ udpSum skb [MOD 65535] ∧
      (udpCheck skb = 0 →
        udpCheck (dhcpFlagBcast false skb) = 65535 - (dhcpFlags skb + 0x8000)) := by
  have hoff := h.offset
  have hfits := h.fits
  have hlen := h.len
  have hx : (skb.u8 (transportOffset skb + 18)).toNat < 128 := by
    have hflag : skb.be16 (transportOffset skb + 8 + 10) &&& 0x8000 = 0 := by
      simp only [isUnicastRequest, Bool.and_eq_true, decide_eq_true_eq] at hreq
      exact hreq.2
    exact (and_broadcast_eq_zero (UInt8.toNat_lt _) (UInt8.toNat_lt _)).mp hflag
  obtain ⟨F, hF⟩ : ∃ F, F = (skb.u8 (transportOffset skb + 18)).toNat + 128 +
      256 * (skb.u8 (transportOffset skb + 19)).toNat := ⟨_, rfl⟩
  have hflags : skb.le16 (transportOffset skb + 8 + 10) ||| 0x0080 = F := by
    rw [hF]
    exact flags_or hx _
  obtain ⟨skb₁, hskb₁⟩ : ∃ skb₁, skb₁ = skb.overwrite (transportOffset skb + 18) (Bytes.ofLe16 F) :=
    ⟨_, rfl⟩
  have h₁ : DhcpFrame skb₁ := hskb₁ ▸ h.overwrite (by omega) (by omega) rfl
  have hoff₁ : transportOffset skb₁ = transportOffset skb := by
    rw [hskb₁, h.offset_overwrite (by omega) (by omega)]
  have hlen₁ : udpLen skb₁ = udpLen skb := by
    rw [hskb₁, h.len_overwrite (by omega) (by omega)]
  have hlen₁' : skb₁.length = skb.length := hskb₁ ▸ length_overwrite (by
    show transportOffset skb + 18 + 2 ≤ skb.length
    omega)
  have hu8 : ∀ j < transportOffset skb + 18, skb₁.u8 j = skb.u8 j := fun j hj =>
    hskb₁ ▸ u8_overwrite_of_lt (by omega) hj
  have hle : skb₁.le16 (transportOffset skb + 6) = skb.le16 (transportOffset skb + 6) := by
    rw [Bytes.le16, Bytes.le16, hu8 _ (by omega), hu8 _ (by omega)]
  have hbe : skb₁.be16 (transportOffset skb + 6) = udpCheck skb := by
    rw [udpCheck, Bytes.be16, Bytes.be16, hu8 _ (by omega), hu8 _ (by omega)]
  obtain ⟨n, hn⟩ : ∃ n, n = complement ((65535 - skb.le16 (transportOffset skb + 6)) + F) :=
    ⟨_, rfl⟩
  have hresult : dhcpFlagBcast false skb =
      skb₁.overwrite (transportOffset skb + 6) (Bytes.ofLe16 n) := by
    rw [dhcpFlagBcast, hreq, if_neg (by simp), hn, ← hle, hskb₁, ← hflags]
  have hlt : n < 65536 := hn ▸ complement_lt _
  have hsum₁ := h.sum_overwrite (i := 18) (n := F) (by omega) (by omega) (by decide) (by
    have := UInt8.toNat_lt (skb.u8 (transportOffset skb + 19))
    omega)
  have hsum₂ := h₁.sum_overwrite (i := 6) (by omega) (by omega) (by decide) hlt
  have hcheck : udpCheck (dhcpFlagBcast false skb) = 256 * (n % 256) + n / 256 := by
    rw [udpCheck, hresult, ← hoff₁, h₁.offset_overwrite (by omega) (by omega), Bytes.ofLe16,
      be16_overwrite (by omega), ofLe16_toNat hlt]
  rw [← hskb₁] at hsum₁
  rw [hoff₁, hbe] at hsum₂
  rw [hcheck, hresult]
  have hadjusted := adjusted_modEq (x := (skb.u8 (transportOffset skb + 18)).toNat)
    (y := (skb.u8 (transportOffset skb + 19)).toNat)
    (a := (skb.u8 (transportOffset skb + 6)).toNat) (b := (skb.u8 (transportOffset skb + 7)).toNat)
    hx (UInt8.toNat_lt _) (UInt8.toNat_lt _) (UInt8.toNat_lt _)
  rw [← hF, show (skb.u8 (transportOffset skb + 6)).toNat + 256 *
    (skb.u8 (transportOffset skb + 7)).toNat = skb.le16 (transportOffset skb + 6) from rfl,
    ← hn] at hadjusted
  have hcheck₀ : udpCheck skb = 256 * (skb.u8 (transportOffset skb + 6)).toNat +
      (skb.u8 (transportOffset skb + 7)).toNat := rfl
  have hflags₀ : dhcpFlags skb = 256 * (skb.u8 (transportOffset skb + 18)).toNat +
      (skb.u8 (transportOffset skb + 19)).toNat := rfl
  have hflags₁ : skb.be16 (transportOffset skb + 18) = dhcpFlags skb := rfl
  have hy := UInt8.toNat_lt (skb.u8 (transportOffset skb + 19))
  rw [← hcheck₀, ← hflags₀] at hadjusted
  refine ⟨?_, hadjusted.2⟩
  have hmod := hadjusted.1
  unfold Nat.ModEq at hmod ⊢
  omega

/-- When `dhcp_flag_bcast` does no harm: it leaves the frame alone, or the flags word that it adds
is all that changes, or a missing checksum comes out as missing. -/
def DhcpHarmless (dhcpBcstDisable : Bool) (skb : Bytes) : Prop :=
  dhcpBcstDisable = true ∨ isUnicastRequest skb = false ∨
    if udpCheck skb = 0 then dhcpFlags skb = 0x7fff else dhcpFlags skb = 0 ∨ ¬ UdpVerifies skb

theorem dhcpFlags_lt {skb : Bytes} (hreq : isUnicastRequest skb) : dhcpFlags skb < 0x8000 := by
  have hflag : skb.be16 (transportOffset skb + 8 + 10) &&& 0x8000 = 0 := by
    simp only [isUnicastRequest, Bool.and_eq_true, decide_eq_true_eq] at hreq
    exact hreq.2
  have hx := (and_broadcast_eq_zero (UInt8.toNat_lt _) (UInt8.toNat_lt _)).mp hflag
  have hy := UInt8.toNat_lt (skb.u8 (transportOffset skb + 19))
  have hflags : dhcpFlags skb = 256 * (skb.u8 (transportOffset skb + 8 + 10)).toNat +
      (skb.u8 (transportOffset skb + 19)).toNat := rfl
  omega

/-- **The DHCP rewrite keeps the checksum** exactly when it does no harm. -/
theorem udpKept_iff {dhcpBcstDisable : Bool} {skb : Bytes} (h : DhcpFrame skb) :
    UdpKept skb (dhcpFlagBcast dhcpBcstDisable skb) ↔ DhcpHarmless dhcpBcstDisable skb := by
  by_cases hoff : dhcpBcstDisable = true ∨ isUnicastRequest skb = false
  · have hsame : dhcpFlagBcast dhcpBcstDisable skb = skb := by
      rw [dhcpFlagBcast, if_pos (by simpa using hoff)]
    rw [hsame]
    refine iff_of_true ?_ (or_assoc.mp (Or.inl hoff))
    unfold UdpKept
    split_ifs with hzero
    · exact hzero
    · exact id
  · obtain ⟨hon, hreq⟩ := not_or.mp hoff
    rw [Bool.not_eq_true] at hon
    rw [Bool.not_eq_false] at hreq
    obtain ⟨hsum, hzero⟩ := udpSum_dhcpFlagBcast h hreq
    have hlt := dhcpFlags_lt hreq
    unfold DhcpHarmless UdpKept
    rw [hon, hreq]
    simp only [Bool.false_eq_true, Bool.true_eq_false, false_or]
    split_ifs with hcheck
    · rw [hzero hcheck]
      omega
    · rw [UdpVerifies, UdpVerifies]
      unfold Nat.ModEq at hsum
      omega

/-! ## Neighbour discovery -/

/-- The octets from `skb->data` on: the frame, and what lies behind it. -/
def skbOctet (beyond : ℕ → UInt8) (skb : Bytes) (i : ℕ) : UInt8 :=
  if i < skb.length then skb.u8 i else beyond i

def scanTlvPass (mem : ℕ → UInt8) (tag len8b : UInt8) : ℕ × ℤ → (ℕ × ℤ) ⊕ Option ℕ
  | (data, len) =>
    if 0 < len then
      if mem data = tag ∧ mem (data + 1) = len8b ∧ len8b.toNat * 8 ≤ len then
        .inr (some (data + 2))
      else .inl (data + (mem (data + 1)).toNat * 8, len - (mem (data + 1)).toNat * 8)
    else .inr none

/-- The options of a neighbour discovery message by `icmp6_type`: where they begin, and the tag of
the address to replace. -/
def ndOptions (icmp6Type : UInt8) : Option (ℕ × UInt8) :=
  if icmp6Type = 133 then some (8, 1)        -- `NDISC_ROUTER_SOLICITATION`
  else if icmp6Type = 134 then some (16, 1)  -- `NDISC_ROUTER_ADVERTISEMENT`
  else if icmp6Type = 135 then some (24, 1)  -- `NDISC_NEIGHBOUR_SOLICITATION`
  else if icmp6Type = 136 then some (24, 2)  -- `NDISC_NEIGHBOUR_ADVERTISEMENT`
  else if icmp6Type = 137 then some (40, 2)  -- `NDISC_REDIRECT`
  else none

/-- The address that `update_nd_link_layer_addr` replaces, if its walk over the options ends within
so many passes. -/
def ndLinkLayerAddr (passes : ℕ) (beyond : ℕ → UInt8) (skb : Bytes) : Option (Option ℕ) :=
  match ndOptions (skb.u8 54) with
  | none => some none
  | some (start, tag) =>
    if start ≤ skb.length - 54 then
      Loop.iterate (scanTlvPass (skbOctet beyond skb) tag 1) passes
        (54 + start, (skb.length - 54 : ℤ) - start)
    else some none

/-- `csum_ipv6_magic` over `csum_partial(hdr, len)`, with `IPPROTO_ICMPV6`. -/
def icmp6Csum (beyond : ℕ → UInt8) (skb : Bytes) (len : ℕ) : ℕ :=
  complement (wordSum (segment skb 22 32) + len + 58 +
    wordSum ((List.range len).map fun i => skbOctet beyond skb (54 + i)))

/-- The frame with the address replaced and the checksum zeroed. -/
def withLinkLayerAddr (hwaddr : MacAddr) (mac : ℕ) (skb : Bytes) : Bytes :=
  (skb.overwrite mac hwaddr.toBytes).overwrite 56 [0, 0]

/-- The IPv6 frame behind the `NAT25_INSERT` branch of `nat25_db_handle`, whose database insert
leaves the frame alone. `iph->payload_len` is in network order, and is used as it stands. -/
def nat25InsertIpv6 (passes : ℕ) (hwaddr : MacAddr) (beyond : ℕ → UInt8) (skb : Bytes) :
    Option Bytes :=
  if skb.length - 14 ≤ 40 then some skb
  else if segment skb 22 16 = List.replicate 16 0 then some skb
  else if skb.u8 20 = 58 ∧ 58 < skb.length then
    (ndLinkLayerAddr passes beyond skb).map fun found =>
      match found with
      | none => skb
      | some mac =>
        let skb := withLinkLayerAddr hwaddr mac skb
        skb.overwrite 56 (Bytes.ofBe16 (icmp6Csum beyond skb (skb.le16 18)))
  else some skb

def payloadLen (skb : Bytes) : ℕ := skb.be16 18

/-- The words of an ICMPv6 message of `len` octets and of its pseudo header. -/
def icmp6Sum (skb : Bytes) : ℕ :=
  wordSum (segment skb 22 32) + payloadLen skb + 58 + wordSum (segment skb 54 (payloadLen skb))

/-- The checksum of a neighbour discovery message. -/
def Icmp6Verifies (skb : Bytes) : Prop := icmp6Sum skb % 65535 = 0

/-- An Ethernet frame that carries a whole neighbour discovery message right behind the IPv6
header. -/
structure NdFrame (skb : Bytes) : Prop where
  nexthdr : skb.u8 20 = 58
  kind : (ndOptions (skb.u8 54)).isSome
  len : 8 ≤ payloadLen skb
  fits : 54 + payloadLen skb ≤ skb.length

def SwappedAgrees (beyond : ℕ → UInt8) (skb : Bytes) : Prop :=
  payloadLen skb + wordSum (segment skb 54 (payloadLen skb)) ≡
    skb.le16 18 + wordSum ((List.range (skb.le16 18)).map fun i => skbOctet beyond skb (54 + i))
    [MOD 65535]

theorem ndLinkLayerAddr_bounds {passes : ℕ} {beyond : ℕ → UInt8} {skb : Bytes} {mac : ℕ}
    (h : ndLinkLayerAddr passes beyond skb = some (some mac)) :
    64 ≤ mac ∧ mac + 6 ≤ skb.length := by
  unfold ndLinkLayerAddr at h
  cases hopts : ndOptions (skb.u8 54) with
  | none => simp [hopts] at h
  | some opts =>
    obtain ⟨start, tag⟩ := opts
    have hstart : 8 ≤ start := by
      unfold ndOptions at hopts
      split_ifs at hopts <;> simp only [Option.some.injEq, Prod.mk.injEq] at hopts <;> omega
    simp only [hopts] at h
    split_ifs at h with hfits
    swap
    · cases h
    -- `data + len` stays at the end of the frame
    have hbounds := Loop.iterate_invariant
      (I := fun s : ℕ × ℤ => 62 ≤ s.1 ∧ (s.1 : ℤ) + s.2 = skb.length)
      (P := fun r : Option ℕ => ∀ m ∈ r, 64 ≤ m ∧ (m : ℤ) + 6 ≤ skb.length)
      (fun s s' hs hpass => ?_) (fun s r hs hpass => ?_) ⟨by omega, by push_cast; omega⟩ h
    · have hmac := hbounds mac rfl
      omega
    · obtain ⟨data, len⟩ := s
      simp only [scanTlvPass] at hpass
      split_ifs at hpass
      obtain rfl := Sum.inl.inj hpass
      push_cast
      omega
    · obtain ⟨data, len⟩ := s
      simp only [scanTlvPass] at hpass
      split_ifs at hpass with hlen htlv
      · obtain rfl := Sum.inr.inj hpass
        rintro m ⟨⟩
        have hfit := htlv.2.2
        simp only [UInt8.toNat_one] at hfit
        push_cast
        omega
      · obtain rfl := Sum.inr.inj hpass
        simp

theorem length_withLinkLayerAddr {hwaddr : MacAddr} {mac : ℕ} {skb : Bytes} (hmac : 64 ≤ mac)
    (hfits : mac + 6 ≤ skb.length) : (withLinkLayerAddr hwaddr mac skb).length = skb.length := by
  have hlen : (skb.overwrite mac hwaddr.toBytes).length = skb.length := length_overwrite hfits
  rw [withLinkLayerAddr, length_overwrite (by rw [hlen]; show 56 + 2 ≤ skb.length; omega), hlen]

/-- The header of the frame is left alone. -/
theorem be16_withLinkLayerAddr {hwaddr : MacAddr} {mac j : ℕ} {skb : Bytes} (hmac : 64 ≤ mac)
    (hfits : mac + 6 ≤ skb.length) (hj : j + 1 < 56) :
    (withLinkLayerAddr hwaddr mac skb).be16 j = skb.be16 j := by
  have hlen : (skb.overwrite mac hwaddr.toBytes).length = skb.length := length_overwrite hfits
  rw [withLinkLayerAddr, be16_overwrite_of_lt (by omega) hj,
    be16_overwrite_of_lt (by omega) (by omega)]

/-- **The checksum computed anew** verifies exactly when the two lengths measure the same. -/
theorem icmp6Verifies_csum {beyond : ℕ → UInt8} {skb : Bytes} (hlen : 8 ≤ payloadLen skb)
    (hfits : 54 + payloadLen skb ≤ skb.length) (hzero : skb.be16 56 = 0) :
    Icmp6Verifies (skb.overwrite 56 (Bytes.ofBe16 (icmp6Csum beyond skb (skb.le16 18)))) ↔
      SwappedAgrees beyond skb := by
  obtain ⟨n, hn⟩ : ∃ n, n = icmp6Csum beyond skb (skb.le16 18) := ⟨_, rfl⟩
  have hlt : n < 65536 := hn ▸ complement_lt _
  have hpayload : payloadLen (skb.overwrite 56 (Bytes.ofBe16 n)) = payloadLen skb :=
    be16_overwrite_of_lt (by omega) (by omega)
  have hseg : segment (skb.overwrite 56 (Bytes.ofBe16 n)) 54 (payloadLen skb) =
      (segment skb 54 (payloadLen skb)).overwrite 2 [UInt8.ofNat (n / 256), UInt8.ofNat n] :=
    segment_overwrite (i := 2) hfits (by show 2 + 2 ≤ payloadLen skb; omega)
  have hword := wordSum_overwrite (s := segment skb 54 (payloadLen skb)) (i := 2) (by decide)
    (by rw [length_segment hfits]; omega) (UInt8.ofNat (n / 256)) (UInt8.ofNat n)
  rw [be16_segment _ _ (by omega), hzero] at hword
  have hbytes : 256 * (UInt8.ofNat (n / 256)).toNat + (UInt8.ofNat n).toNat = n := by
    simp only [UInt8.toNat_ofNat']
    omega
  have hsum : icmp6Sum (skb.overwrite 56 (Bytes.ofBe16 n)) = icmp6Sum skb + n := by
    rw [icmp6Sum, hpayload, hseg, segment_overwrite_of_le (by omega) (by omega), icmp6Sum]
    omega
  rw [← hn, Icmp6Verifies, hsum, hn, icmp6Csum, add_complement_mod, icmp6Sum, SwappedAgrees]
  unfold Nat.ModEq
  omega

theorem icmp6Verifies_withLinkLayerAddr {hwaddr : MacAddr} {beyond : ℕ → UInt8} {skb : Bytes}
    {mac : ℕ} (h : NdFrame skb) (hmac : 64 ≤ mac) (hin : mac + 6 ≤ skb.length) :
    Icmp6Verifies ((withLinkLayerAddr hwaddr mac skb).overwrite 56 (Bytes.ofBe16
        (icmp6Csum beyond (withLinkLayerAddr hwaddr mac skb)
          ((withLinkLayerAddr hwaddr mac skb).le16 18)))) ↔
      SwappedAgrees beyond (withLinkLayerAddr hwaddr mac skb) := by
  have hlen : payloadLen (withLinkLayerAddr hwaddr mac skb) = payloadLen skb :=
    be16_withLinkLayerAddr hmac hin (by omega)
  have hlength := @length_withLinkLayerAddr hwaddr _ _ hmac hin
  have hbody : (skb.overwrite mac hwaddr.toBytes).length = skb.length := length_overwrite hin
  refine icmp6Verifies_csum (hlen ▸ h.len) (by rw [hlen, hlength]; exact h.fits) ?_
  rw [withLinkLayerAddr, be16_overwrite (by omega)]
  rfl

/-- When the `NAT25_INSERT` branch does no harm to a neighbour discovery frame: the source is
unspecified, or the walk over the options ends and finds nothing, or the two lengths of the message
that it changes measure the same. -/
def NdHarmless (hwaddr : MacAddr) (beyond : ℕ → UInt8) (skb : Bytes) : Prop :=
  segment skb 22 16 = List.replicate 16 0 ∨ ∃ passes found,
    ndLinkLayerAddr passes beyond skb = some found ∧ ∀ mac ∈ found,
      Icmp6Verifies skb → SwappedAgrees beyond (withLinkLayerAddr hwaddr mac skb)

/-- **The address replacement keeps the checksum** exactly when it does no harm. -/
theorem icmp6Kept_iff {hwaddr : MacAddr} {beyond : ℕ → UInt8} {skb : Bytes} (h : NdFrame skb) :
    (∃ passes skb', nat25InsertIpv6 passes hwaddr beyond skb = some skb' ∧
      (Icmp6Verifies skb → Icmp6Verifies skb')) ↔ NdHarmless hwaddr beyond skb := by
  have hlen := h.len
  have hfits := h.fits
  by_cases hsaddr : segment skb 22 16 = List.replicate 16 0
  · refine iff_of_true ⟨0, skb, ?_, id⟩ (Or.inl hsaddr)
    rw [nat25InsertIpv6, if_neg (by omega), if_pos hsaddr]
  · have hinsert (passes : ℕ) : nat25InsertIpv6 passes hwaddr beyond skb =
        (ndLinkLayerAddr passes beyond skb).map fun found =>
          match found with
          | none => skb
          | some mac => (withLinkLayerAddr hwaddr mac skb).overwrite 56 (Bytes.ofBe16
              (icmp6Csum beyond (withLinkLayerAddr hwaddr mac skb)
                ((withLinkLayerAddr hwaddr mac skb).le16 18))) := by
      rw [nat25InsertIpv6, if_neg (by omega), if_neg hsaddr, if_pos ⟨h.nexthdr, by omega⟩]
    simp only [NdHarmless, hsaddr, false_or, hinsert, Option.map_eq_some_iff]
    refine exists_congr fun passes => ?_
    constructor
    · rintro ⟨skb', ⟨found, hfound, rfl⟩, hkept⟩
      refine ⟨found, hfound, fun mac hmac hverifies => ?_⟩
      obtain rfl := Option.mem_def.mp hmac
      obtain ⟨hbehind, hin⟩ := ndLinkLayerAddr_bounds hfound
      exact (icmp6Verifies_withLinkLayerAddr h hbehind hin).mp (hkept hverifies)
    · rintro ⟨found, hfound, hagrees⟩
      refine ⟨_, ⟨found, hfound, rfl⟩, fun hverifies => ?_⟩
      cases found with
      | none => exact hverifies
      | some mac =>
        obtain ⟨hbehind, hin⟩ := ndLinkLayerAddr_bounds hfound
        exact (icmp6Verifies_withLinkLayerAddr h hbehind hin).mpr (hagrees mac rfl hverifies)

/-- **The two rewrites keep the checksums exactly when they do no harm.** -/
theorem checksumsKept_iff (dhcpBcstDisable : Bool) (hwaddr : MacAddr) (beyond : ℕ → UInt8)
    (skb : Bytes) :
    (DhcpFrame skb →
      (UdpKept skb (dhcpFlagBcast dhcpBcstDisable skb) ↔ DhcpHarmless dhcpBcstDisable skb)) ∧
      (NdFrame skb →
        ((∃ passes skb', nat25InsertIpv6 passes hwaddr beyond skb = some skb' ∧
          (Icmp6Verifies skb → Icmp6Verifies skb')) ↔ NdHarmless hwaddr beyond skb)) :=
  ⟨udpKept_iff, icmp6Kept_iff⟩

def dhcpRequest (flags check : ℕ) : Bytes :=
  List.replicate 12 0 ++ [8, 0, 0x45] ++ List.replicate 8 0 ++ [17] ++ List.replicate 10 0 ++
    [0, 68, 0, 67, 0, 248] ++ Bytes.ofBe16 check ++ List.replicate 10 0 ++ Bytes.ofBe16 flags ++
    List.replicate 224 0 ++ [0x63, 0x82, 0x53, 0x63]

theorem dhcpFrame_dhcpRequest : DhcpFrame (dhcpRequest 1 18065) :=
  ⟨by decide, by decide, by decide +kernel⟩

/-- A solicitation of 32 octets, which the code measures as 8192. -/
def neighbourSolicitation : Bytes :=
  List.replicate 12 0 ++ [0x86, 0xdd, 0x60, 0, 0, 0, 0, 32, 58, 255, 0xfe, 0x80] ++
    List.replicate 29 0 ++ [2, 135, 0] ++ Bytes.ofBe16 30488 ++ List.replicate 20 0 ++
    [1, 1, 2, 0, 0, 0, 0, 9]

theorem not_ndHarmless : ¬NdHarmless .zero (fun _ => 0) neighbourSolicitation := by
  rintro (hsaddr | ⟨_ | passes, found, hfound, hagrees⟩)
  · exact absurd hsaddr (by decide)
  · exact (nomatch hfound)
  · obtain rfl : some 80 = found := Option.some.inj hfound
    have hverifies : Icmp6Verifies neighbourSolicitation := by
      unfold Icmp6Verifies
      decide +kernel
    have hswapped := hagrees 80 rfl hverifies
    unfold SwappedAgrees Nat.ModEq at hswapped
    exact absurd hswapped (by decide +kernel)

/-- A request without flags is rewritten and keeps its checksum, the solicitation does not. -/
theorem checksumsKept_iff_request :
    UdpKept (dhcpRequest 0 18066) (dhcpFlagBcast false (dhcpRequest 0 18066)) ∧
      ¬∃ passes skb', nat25InsertIpv6 passes .zero (fun _ => 0) neighbourSolicitation = some skb' ∧
        (Icmp6Verifies neighbourSolicitation → Icmp6Verifies skb') := by
  have hdhcp : DhcpFrame (dhcpRequest 0 18066) := ⟨by decide, by decide, by decide +kernel⟩
  have hharmless : DhcpHarmless false (dhcpRequest 0 18066) := by
    refine .inr (.inr ?_)
    rw [if_neg (by decide)]
    exact .inl (by decide)
  have hnd : NdFrame neighbourSolicitation := ⟨by decide, by decide, by decide, by decide⟩
  exact ⟨((checksumsKept_iff false .zero (fun _ => 0) _).1 hdhcp).mpr hharmless,
    ((checksumsKept_iff false .zero (fun _ => 0) _).2 hnd).not.mpr not_ndHarmless⟩

/-- **A flag that was set before spoils the checksum.** -/
theorem not_udpKept : DhcpFrame (dhcpRequest 1 18065) ∧ UdpVerifies (dhcpRequest 1 18065) ∧
    ¬ UdpKept (dhcpRequest 1 18065) (dhcpFlagBcast false (dhcpRequest 1 18065)) := by
  have hverifies : UdpVerifies (dhcpRequest 1 18065) := by
    unfold UdpVerifies
    decide +kernel
  refine ⟨dhcpFrame_dhcpRequest, hverifies, ?_⟩
  rw [udpKept_iff dhcpFrame_dhcpRequest]
  rintro (hoff | hother | hharmless)
  · cases hoff
  · have hreq : isUnicastRequest (dhcpRequest 1 18065) = true := by decide +kernel
    exact Bool.false_ne_true (hother.symm.trans hreq)
  · rw [if_neg (by decide)] at hharmless
    rcases hharmless with hflags | hnot
    · exact absurd hflags (by decide)
    · exact hnot hverifies

end Rtl88x2eu
