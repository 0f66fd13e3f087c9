import Rtl88x2eu.Xmit.State

/-!
# The classes of transmitted frames

Between the station lookup and the security attributes `update_attrib` reads on in an IPv4 frame
through a packet cursor: the IP header into one stack buffer, and the start of the transport header
into another. The flags that it sets decide about power saving and scanning, and a TCP segment may
start or end the tracking of a session. A short read leaves the rest of a buffer as it was, and the
options of an IP header are skipped by a negative number of octets, which as an unsigned one is
more than any frame has.

## Main definitions

* `PktFile`, `rtwPktfileRead`: the cursor
* `StCtl`, `SessionCmd`: what is registered with the session tracker, and a command to it
* `classify`
* `expectedClasses`, `RightCmd`: what the frame itself says
* `WellRead`

## Main results

* `classify_eq`: what the buffers hold
* `classified_iff`: the frames that are classified rightly whatever lay on the stack before
-/

namespace Rtl88x2eu.Xmit

structure PktFile where
  pkt : Bytes
  pktLen : ℕ
  bufLen : ℕ

def rtwOpenPktfile (pkt : Bytes) : PktFile := ⟨pkt, pkt.length, pkt.length⟩

def rtwPktfileRead (f : PktFile) (rmem : ℕ → UInt8) (rlen : ℕ) : (ℕ → UInt8) × PktFile :=
  let len := min rlen f.pktLen
  (fun i => if i < len then f.pkt.u8 (f.bufLen - f.pktLen + i) else rmem i,
    { f with pktLen := f.pktLen - len })

/-! ## Headers in buffers -/

def getIpv4Ihl (ip : ℕ → UInt8) : ℕ := (ip 0).toNat % 16

def getIpv4Protocol (ip : ℕ → UInt8) : UInt8 := ip 9

/-- `IPV4_SRC`, as the four octets. -/
def ipv4Src (ip : ℕ → UInt8) : Bytes := [ip 12, ip 13, ip 14, ip 15]

def ipv4Dst (ip : ℕ → UInt8) : Bytes := [ip 16, ip 17, ip 18, ip 19]

def getUdpSrc (udp : ℕ → UInt8) : ℕ := 256 * (udp 0).toNat + (udp 1).toNat

def getUdpDst (udp : ℕ → UInt8) : ℕ := 256 * (udp 2).toNat + (udp 3).toNat

/-- `TCP_SRC`, as the two octets. -/
def tcpSrc (tcp : ℕ → UInt8) : Bytes := [tcp 0, tcp 1]

def tcpDst (tcp : ℕ → UInt8) : Bytes := [tcp 2, tcp 3]

def getTcpFin (tcp : ℕ → UInt8) : Bool := (tcp 13).toNat.testBit 0

def getTcpSyn (tcp : ℕ → UInt8) : Bool := (tcp 13).toNat.testBit 1

def getTcpAck (tcp : ℕ → UInt8) : Bool := (tcp 13).toNat.testBit 4

def isDhcp (udp : ℕ → UInt8) : Bool :=
  (getUdpSrc udp = 68 && getUdpDst udp = 67) || (getUdpSrc udp = 67 && getUdpDst udp = 68)

def isWaveAgent (udp : ℕ → UInt8) : Bool := (udp 8 = 0xcc || udp 8 = 0xdd) && udp 23 = 0xe2

structure StRegister where
  sProto : UInt8
  rule : Option (Bytes → Bytes → Bytes → Bytes → Bool)

abbrev StCtl := List StRegister

def rtwStCtlChkRegSProto (ctl : StCtl) (sProto : UInt8) : Bool := ctl.any fun r => r.sProto = sProto

def rtwStCtlChkRegRule (ctl : StCtl) (localNaddr localPort remoteNaddr remotePort : Bytes) : Bool :=
  ctl.any fun r => r.rule.any fun rule => rule localNaddr localPort remoteNaddr remotePort

/-- `ST_CMD_ADD` or `ST_CMD_DEL`, with its parameters. -/
structure SessionCmd where
  add : Bool
  localNaddr : Bytes
  localPort : Bytes
  remoteNaddr : Bytes
  remotePort : Bytes
deriving DecidableEq, Repr

/-- The commands of a TCP segment in `update_attrib`. -/
def sessionCmds (ctl : StCtl) (ip tcp : ℕ → UInt8) : List SessionCmd :=
  if rtwStCtlChkRegRule ctl (ipv4Src ip) (tcpSrc tcp) (ipv4Dst ip) (tcpDst tcp) then
    (if getTcpSyn tcp && getTcpAck tcp then
      [⟨true, ipv4Src ip, tcpSrc tcp, ipv4Src ip, tcpDst tcp⟩] else []) ++
    (if getTcpFin tcp then [⟨false, ipv4Src ip, tcpSrc tcp, ipv4Src ip, tcpDst tcp⟩] else [])
  else []

/-- The flags of `struct pkt_attrib`. -/
structure Classes where
  icmpPkt : Bool := false
  dhcpPkt : Bool := false
  hipriorityPkt : Bool := false
deriving DecidableEq, Repr

/-- What lies on the stack where `update_attrib` has its buffers. -/
structure Stack where
  etherhdr : ℕ → UInt8 := fun _ => 0
  ip : ℕ → UInt8 := fun _ => 0
  udp : ℕ → UInt8 := fun _ => 0
  tcp : ℕ → UInt8 := fun _ => 0

/-- The classification once the IP header and its protocol are known; `pktlen` is the length behind
the Ethernet header. -/
def classifyIp (ctl : StCtl) (pktlen : ℕ) (ip udp tcp : ℕ → UInt8) : Classes × List SessionCmd :=
  if getIpv4Protocol ip = 0x01 then ({ icmpPkt := true }, [])
  else if getIpv4Protocol ip = 0x11 then
    ({ dhcpPkt := isDhcp udp && 282 < pktlen, hipriorityPkt := isWaveAgent udp }, [])
  else if getIpv4Protocol ip = 0x06 ∧ rtwStCtlChkRegSProto ctl 0x06 then
    ({}, sessionCmds ctl ip tcp)
  else ({}, [])

/-- The part of `update_attrib` on IPv4 frames. The length to skip is a `uint`. -/
def classify (ctl : StCtl) (stack : Stack) (pkt : Bytes) : Classes × List SessionCmd :=
  let eth := rtwPktfileRead (rtwOpenPktfile pkt) stack.etherhdr 14
  let pktlen := eth.2.pktLen
  let ip := rtwPktfileRead eth.2 stack.ip 20
  let pktfile :=
    if getIpv4Ihl ip.1 * 4 > 20 then
      (rtwPktfileRead ip.2 (fun _ => 0) ((getIpv4Ihl ip.1 + 2 ^ 32 - 20) % 2 ^ 32)).2
    else ip.2
  classifyIp ctl pktlen ip.1 (rtwPktfileRead pktfile stack.udp 24).1
    (rtwPktfileRead pktfile stack.tcp 20).1

/-! ## What the frame says -/

/-- An IPv4 frame, of a length that an `sk_buff` can have and long enough to tell its header
length. -/
structure Ipv4Frame (pkt : Bytes) : Prop where
  etherType : pkt.be16 12 = 0x0800
  hasIhl : 15 ≤ pkt.length
  ihl : 5 ≤ (pkt.u8 14).toNat % 16
  small : pkt.length < 2 ^ 32

def transportAt (pkt : Bytes) : ℕ := 14 + 4 * ((pkt.u8 14).toNat % 16)

def octetsAt (pkt : Bytes) (a : ℕ) : ℕ → UInt8 := fun i => pkt.u8 (a + i)

/-- The flags that are due to a frame. -/
def expectedClasses (pkt : Bytes) : Classes :=
  let udp := octetsAt pkt (transportAt pkt)
  { icmpPkt := 24 ≤ pkt.length && pkt.u8 23 = 0x01
    dhcpPkt := 24 ≤ pkt.length && pkt.u8 23 = 0x11 && transportAt pkt + 4 ≤ pkt.length &&
      isDhcp udp && 282 < pkt.length - 14
    hipriorityPkt := 24 ≤ pkt.length && pkt.u8 23 = 0x11 && transportAt pkt + 24 ≤ pkt.length &&
      isWaveAgent udp }

/-- A command names the two ends of the segment in the frame. -/
structure RightCmd (pkt : Bytes) (cmd : SessionCmd) : Prop where
  present : transportAt pkt + 4 ≤ pkt.length
  localNaddr : cmd.localNaddr = ipv4Src (octetsAt pkt 14)
  localPort : cmd.localPort = tcpSrc (octetsAt pkt (transportAt pkt))
  remoteNaddr : cmd.remoteNaddr = ipv4Dst (octetsAt pkt 14)
  remotePort : cmd.remotePort = tcpDst (octetsAt pkt (transportAt pkt))

def Classified (pkt : Bytes) : Prop :=
  ∀ ctl stack, (classify ctl stack pkt).1 = expectedClasses pkt ∧
    ∀ cmd ∈ (classify ctl stack pkt).2, RightCmd pkt cmd

def sessionEdge (tcp : ℕ → UInt8) : Bool := getTcpSyn tcp && getTcpAck tcp || getTcpFin tcp

/-- The frames that are read as they are. -/
structure WellRead (pkt : Bytes) : Prop where
  protocol : 24 ≤ pkt.length
  udp : pkt.u8 23 = 0x11 → (pkt.u8 14).toNat % 16 = 5 ∧
    (58 ≤ pkt.length ∨ 43 ≤ pkt.length ∧ pkt.u8 42 ≠ 0xcc ∧ pkt.u8 42 ≠ 0xdd)
  tcp : pkt.u8 23 = 0x06 → (pkt.u8 14).toNat % 16 = 5 ∧
    (48 ≤ pkt.length ∧ sessionEdge (octetsAt pkt 34) = false ∨
      38 ≤ pkt.length ∧ ipv4Src (octetsAt pkt 14) = ipv4Dst (octetsAt pkt 14))

/-- The octets that a read finds from an offset on, if `n` are left, before those of the stack. -/
def readOver (pkt : Bytes) (a n : ℕ) (mem : ℕ → UInt8) : ℕ → UInt8 :=
  fun i => if i < n then pkt.u8 (a + i) else mem i

def leftOver (pkt : Bytes) : ℕ := if (pkt.u8 14).toNat % 16 = 5 then pkt.length - 34 else 0

variable {pkt : Bytes} {ctl : StCtl} {stack : Stack} {mem : ℕ → UInt8} {a n i : ℕ}

theorem readOver_of_lt (h : i < n) : readOver pkt a n mem i = pkt.u8 (a + i) := if_pos h

theorem readOver_of_le (h : n ≤ i) : readOver pkt a n mem i = mem i := if_neg (not_lt.mpr h)

/-- **What the buffers hold.** -/
theorem classify_eq (h : Ipv4Frame pkt) : classify ctl stack pkt =
    classifyIp ctl (pkt.length - 14) (readOver pkt 14 (min 20 (pkt.length - 14)) stack.ip)
      (readOver pkt 34 (min 24 (leftOver pkt)) stack.udp)
      (readOver pkt 34 (min 20 (leftOver pkt)) stack.tcp) := by
  have hlen := h.hasIhl
  have hsmall := h.small
  have hihl := h.ihl
  have heth : (rtwPktfileRead (rtwOpenPktfile pkt) stack.etherhdr 14).2 =
      ⟨pkt, pkt.length - 14, pkt.length⟩ := by
    simp only [rtwPktfileRead, rtwOpenPktfile, PktFile.mk.injEq, true_and, and_true]
    omega
  have hip : rtwPktfileRead ⟨pkt, pkt.length - 14, pkt.length⟩ stack.ip 20 =
      (readOver pkt 14 (min 20 (pkt.length - 14)) stack.ip,
        ⟨pkt, pkt.length - 34, pkt.length⟩) := by
    have hat : pkt.length - (pkt.length - 14) = 14 := by omega
    have hleft : pkt.length - 14 - min 20 (pkt.length - 14) = pkt.length - 34 := by omega
    simp only [rtwPktfileRead, hat, hleft]
    rfl
  have hfirst : getIpv4Ihl (readOver pkt 14 (min 20 (pkt.length - 14)) stack.ip) =
      (pkt.u8 14).toNat % 16 := by
    rw [getIpv4Ihl, readOver_of_lt (by omega)]
  -- with options the length to skip is at least `2 ^ 32 - 14`
  have hskip : (if (pkt.u8 14).toNat % 16 * 4 > 20 then
      (rtwPktfileRead ⟨pkt, pkt.length - 34, pkt.length⟩ (fun _ => 0)
        (((pkt.u8 14).toNat % 16 + 2 ^ 32 - 20) % 2 ^ 32)).2
      else ⟨pkt, pkt.length - 34, pkt.length⟩) = ⟨pkt, leftOver pkt, pkt.length⟩ := by
    rw [leftOver]
    split_ifs with hopt heq heq
    · omega
    · have hall : min (((pkt.u8 14).toNat % 16 + 2 ^ 32 - 20) % 2 ^ 32) (pkt.length - 34) =
          pkt.length - 34 := by
        omega
      simp only [rtwPktfileRead, hall, Nat.sub_self]
    · rfl
    · omega
  have htransport : ∀ rlen mem, (rtwPktfileRead ⟨pkt, leftOver pkt, pkt.length⟩ mem rlen).1 =
      readOver pkt 34 (min rlen (leftOver pkt)) mem := by
    intro rlen mem
    funext i
    by_cases hi : i < min rlen (leftOver pkt)
    · have hat : pkt.length - leftOver pkt = 34 := by
        rw [leftOver] at hi ⊢
        split_ifs at hi ⊢ <;> omega
      rw [readOver_of_lt hi]
      simp only [rtwPktfileRead, if_pos hi, hat]
    · rw [readOver_of_le (not_lt.mp hi)]
      simp only [rtwPktfileRead, if_neg hi]
  rw [classify]
  simp only [heth, hip, hfirst, hskip, htransport]

theorem isDhcp_congr {b b' : ℕ → UInt8} (h : ∀ i < 4, b i = b' i) : isDhcp b = isDhcp b' := by
  have hsrc : getUdpSrc b = getUdpSrc b' := by
    rw [getUdpSrc, h 0 (by decide), h 1 (by decide), getUdpSrc]
  have hdst : getUdpDst b = getUdpDst b' := by
    rw [getUdpDst, h 2 (by decide), h 3 (by decide), getUdpDst]
  rw [isDhcp, isDhcp, hsrc, hdst]

theorem readOver_protocol (h : 24 ≤ pkt.length) :
    getIpv4Protocol (readOver pkt 14 (min 20 (pkt.length - 14)) mem) = pkt.u8 23 :=
  readOver_of_lt (by omega)

theorem readOver_addresses (h : 34 ≤ pkt.length) :
    ipv4Src (readOver pkt 14 (min 20 (pkt.length - 14)) mem) = ipv4Src (octetsAt pkt 14) ∧
      ipv4Dst (readOver pkt 14 (min 20 (pkt.length - 14)) mem) = ipv4Dst (octetsAt pkt 14) := by
  have hread : ∀ i < 20, readOver pkt 14 (min 20 (pkt.length - 14)) mem i = octetsAt pkt 14 i :=
    fun i hi => readOver_of_lt (by omega)
  constructor
  · simp only [ipv4Src, hread 12 (by decide), hread 13 (by decide), hread 14 (by decide),
      hread 15 (by decide)]
  · simp only [ipv4Dst, hread 16 (by decide), hread 17 (by decide), hread 18 (by decide),
      hread 19 (by decide)]

theorem udp_right (hproto : pkt.u8 23 = 0x11) (hihl : (pkt.u8 14).toNat % 16 = 5)
    (hsig : 58 ≤ pkt.length ∨ 43 ≤ pkt.length ∧ pkt.u8 42 ≠ 0xcc ∧ pkt.u8 42 ≠ 0xdd) :
    (isDhcp (readOver pkt 34 (min 24 (leftOver pkt)) mem) && decide (282 < pkt.length - 14)) =
        (expectedClasses pkt).dhcpPkt ∧
      isWaveAgent (readOver pkt 34 (min 24 (leftOver pkt)) mem) =
        (expectedClasses pkt).hipriorityPkt := by
  have hlen : 43 ≤ pkt.length := by omega
  have hleft : leftOver pkt = pkt.length - 34 := if_pos hihl
  have hat : transportAt pkt = 34 := by rw [transportAt, hihl]
  have hread : ∀ i, i < min 24 (pkt.length - 34) →
      readOver pkt 34 (min 24 (leftOver pkt)) mem i = octetsAt pkt 34 i :=
    fun i hi => readOver_of_lt (hleft ▸ hi)
  constructor
  · have hports : isDhcp (readOver pkt 34 (min 24 (leftOver pkt)) mem) =
        isDhcp (octetsAt pkt 34) :=
      isDhcp_congr fun i hi => hread i (by omega)
    have hin : 24 ≤ pkt.length ∧ 34 + 4 ≤ pkt.length := by omega
    simp [expectedClasses, hports, hat, hproto, hin]
  · rw [isWaveAgent, hread 8 (by omega)]
    simp only [expectedClasses, hat, hproto]
    rcases hsig with hwhole | ⟨-, hcc, hdd⟩
    · rw [hread 23 (by omega)]
      have hin : 24 ≤ pkt.length ∧ 34 + 24 ≤ pkt.length := by omega
      simp [isWaveAgent, hin]
    · have hno : (decide (octetsAt pkt 34 8 = 0xcc) ||
          decide (octetsAt pkt 34 8 = 0xdd)) = false := by
        rw [Bool.or_eq_false_iff, decide_eq_false_iff_not, decide_eq_false_iff_not]
        exact ⟨hcc, hdd⟩
      simp [isWaveAgent, hno]

theorem mem_sessionCmds {ip tcp : ℕ → UInt8} {cmd : SessionCmd} (h : cmd ∈ sessionCmds ctl ip tcp) :
    sessionEdge tcp = true ∧ cmd.localNaddr = ipv4Src ip ∧ cmd.localPort = tcpSrc tcp ∧
      cmd.remoteNaddr = ipv4Src ip ∧ cmd.remotePort = tcpDst tcp := by
  rw [sessionCmds] at h
  split_ifs at h with hrule hsyn hfin hfin
  · rcases List.mem_append.mp h with h | h <;> obtain rfl := List.mem_singleton.mp h <;>
      simp [sessionEdge, hsyn]
  · obtain rfl := List.mem_singleton.mp (by simpa using h)
    simp [sessionEdge, hsyn]
  · obtain rfl := List.mem_singleton.mp (by simpa using h)
    simp [sessionEdge, hfin]
  · simp at h
  · cases h

theorem tcp_right (hihl : (pkt.u8 14).toNat % 16 = 5)
    (hedge : 48 ≤ pkt.length ∧ sessionEdge (octetsAt pkt 34) = false ∨
      38 ≤ pkt.length ∧ ipv4Src (octetsAt pkt 14) = ipv4Dst (octetsAt pkt 14))
    {mem' : ℕ → UInt8} {cmd : SessionCmd}
    (hcmd : cmd ∈ sessionCmds ctl (readOver pkt 14 (min 20 (pkt.length - 14)) mem)
      (readOver pkt 34 (min 20 (leftOver pkt)) mem')) : RightCmd pkt cmd := by
  have hlen : 38 ≤ pkt.length := by omega
  have hleft : leftOver pkt = pkt.length - 34 := if_pos hihl
  have hat : transportAt pkt = 34 := by rw [transportAt, hihl]
  have hread : ∀ i, i < min 20 (pkt.length - 34) →
      readOver pkt 34 (min 20 (leftOver pkt)) mem' i = octetsAt pkt 34 i :=
    fun i hi => readOver_of_lt (hleft ▸ hi)
  have haddresses := @readOver_addresses pkt mem (by omega)
  obtain ⟨hsrc, -⟩ := haddresses
  obtain ⟨hissued, hln, hlp, hrn, hrp⟩ := mem_sessionCmds hcmd
  rcases hedge with ⟨hwhole, hnone⟩ | ⟨-, hself⟩
  · have hsame : sessionEdge (readOver pkt 34 (min 20 (leftOver pkt)) mem') =
        sessionEdge (octetsAt pkt 34) := by
      rw [sessionEdge, getTcpSyn, getTcpAck, getTcpFin, hread 13 (by omega), sessionEdge,
        getTcpSyn, getTcpAck, getTcpFin]
    exact absurd (hnone.symm.trans (hsame.symm.trans hissued)) Bool.false_ne_true
  · refine ⟨by omega, hln.trans hsrc, ?_, hrn.trans (hsrc.trans hself), ?_⟩
    · rw [hlp, tcpSrc, hread 0 (by omega), hread 1 (by omega), hat, tcpSrc]
    · rw [hrp, tcpDst, hread 2 (by omega), hread 3 (by omega), hat, tcpDst]

/-- **A well read frame is classified rightly.** -/
theorem WellRead.classified (hpkt : Ipv4Frame pkt) (h : WellRead pkt) : Classified pkt := by
  intro ctl stack
  have hproto := @readOver_protocol pkt stack.ip h.protocol
  have hthere : 24 ≤ pkt.length := h.protocol
  rw [classify_eq hpkt, classifyIp, hproto]
  by_cases hicmp : pkt.u8 23 = 0x01
  · rw [if_pos hicmp]
    refine ⟨?_, fun cmd hcmd => absurd hcmd List.not_mem_nil⟩
    simp [expectedClasses, hicmp, hthere]
  rw [if_neg hicmp]
  by_cases hudp : pkt.u8 23 = 0x11
  · rw [if_pos hudp]
    refine ⟨?_, fun cmd hcmd => absurd hcmd List.not_mem_nil⟩
    obtain ⟨hihl, hsig⟩ := h.udp hudp
    obtain ⟨hdhcp, hprio⟩ := @udp_right pkt stack.udp hudp hihl hsig
    dsimp only
    rw [hdhcp, hprio]
    simp [expectedClasses, hudp]
  rw [if_neg hudp]
  have hnone : expectedClasses pkt = {} := by simp [expectedClasses, hicmp, hudp]
  by_cases htcp : pkt.u8 23 = 0x06 ∧ rtwStCtlChkRegSProto ctl 0x06 = true
  · rw [if_pos htcp]
    obtain ⟨hihl, hedge⟩ := h.tcp htcp.1
    exact ⟨hnone.symm, fun cmd hcmd => tcp_right hihl hedge hcmd⟩
  · rw [if_neg htcp]
    exact ⟨hnone.symm, fun cmd hcmd => absurd hcmd List.not_mem_nil⟩

/-! ## Wrong classifications -/

def waveAgentMem : ℕ → UInt8 := fun i => if i = 8 then 0xcc else if i = 23 then 0xe2 else 0

/-- A session tracker that takes every TCP session. -/
def allSessions : StCtl := [⟨0x06, some fun _ _ _ _ => true⟩]

theorem exists_mem_sessionCmds {ip tcp : ℕ → UInt8} (hedge : sessionEdge tcp = true) :
    ∃ cmd ∈ sessionCmds allSessions ip tcp, cmd.localNaddr = ipv4Src ip ∧
      cmd.localPort = tcpSrc tcp ∧ cmd.remoteNaddr = ipv4Src ip := by
  have hrule : rtwStCtlChkRegRule allSessions (ipv4Src ip) (tcpSrc tcp) (ipv4Dst ip) (tcpDst tcp) =
      true := rfl
  rw [sessionCmds, if_pos hrule]
  cases hsyn : getTcpSyn tcp && getTcpAck tcp with
  | true => exact ⟨_, List.mem_append_left _ (by simp; rfl), rfl, rfl, rfl⟩
  | false =>
    have hfin : getTcpFin tcp = true := by simpa [sessionEdge, hsyn] using hedge
    exact ⟨_, List.mem_append_right _ (by simp [hfin]; rfl), rfl, rfl, rfl⟩

theorem protocol_of_classified (hpkt : Ipv4Frame pkt) (h : Classified pkt) : 24 ≤ pkt.length := by
  by_contra hshort
  let stack : Stack := { ip := fun i => if i = 9 then 1 else 0 }
  have hproto : getIpv4Protocol (readOver pkt 14 (min 20 (pkt.length - 14)) stack.ip) = 1 :=
    readOver_of_le (by omega)
  have hicmp := congrArg Classes.icmpPkt (h [] stack).1
  rw [classify_eq hpkt, classifyIp, if_pos hproto] at hicmp
  simp [expectedClasses, hshort] at hicmp

theorem isWaveAgent_of_classified (hpkt : Ipv4Frame pkt) (h : Classified pkt)
    (hudp : pkt.u8 23 = 0x11) (mem : ℕ → UInt8) :
    isWaveAgent (readOver pkt 34 (min 24 (leftOver pkt)) mem) =
      (expectedClasses pkt).hipriorityPkt := by
  have hprio := congrArg Classes.hipriorityPkt (h [] { udp := mem }).1
  have hproto := @readOver_protocol pkt (fun _ => 0) (protocol_of_classified hpkt h)
  rwa [classify_eq hpkt, classifyIp, if_neg (by rw [hproto, hudp]; decide),
    if_pos (hproto.trans hudp)] at hprio

theorem udp_of_classified (hpkt : Ipv4Frame pkt) (h : Classified pkt) (hudp : pkt.u8 23 = 0x11) :
    (pkt.u8 14).toNat % 16 = 5 ∧
      (58 ≤ pkt.length ∨ 43 ≤ pkt.length ∧ pkt.u8 42 ≠ 0xcc ∧ pkt.u8 42 ≠ 0xdd) := by
  have hboth : isWaveAgent (readOver pkt 34 (min 24 (leftOver pkt)) fun _ => 0) =
      isWaveAgent (readOver pkt 34 (min 24 (leftOver pkt)) waveAgentMem) :=
    (isWaveAgent_of_classified hpkt h hudp _).trans (isWaveAgent_of_classified hpkt h hudp _).symm
  by_contra hwrong
  have hshort : min 24 (leftOver pkt) ≤ 23 := by
    rw [leftOver]
    split_ifs with hihl
    · have hnot := not_or.mp fun hlen => hwrong ⟨hihl, hlen⟩
      omega
    · omega
  have hfirst : readOver pkt 34 (min 24 (leftOver pkt)) waveAgentMem 8 = 0xcc ∨
      readOver pkt 34 (min 24 (leftOver pkt)) waveAgentMem 8 = 0xdd := by
    by_cases hread : 8 < min 24 (leftOver pkt)
    · have hihl : (pkt.u8 14).toNat % 16 = 5 := by
        by_contra hopt
        rw [leftOver, if_neg hopt] at hread
        omega
      rw [leftOver, if_pos hihl] at hread
      rw [readOver_of_lt (by rw [leftOver, if_pos hihl]; exact hread)]
      by_contra hsig
      obtain ⟨hcc, hdd⟩ := not_or.mp hsig
      exact hwrong ⟨hihl, .inr ⟨by omega, hcc, hdd⟩⟩
    · exact .inl (readOver_of_le (not_lt.mp hread))
  have hset : isWaveAgent (readOver pkt 34 (min 24 (leftOver pkt)) waveAgentMem) = true := by
    have hlast : readOver pkt 34 (min 24 (leftOver pkt)) waveAgentMem 23 = 0xe2 :=
      readOver_of_le hshort
    rw [isWaveAgent, hlast]
    simpa using hfirst
  have hclear : isWaveAgent (readOver pkt 34 (min 24 (leftOver pkt)) fun _ => 0) = false := by
    have hlast : readOver pkt 34 (min 24 (leftOver pkt)) (fun _ => 0) 23 = 0 :=
      readOver_of_le hshort
    rw [isWaveAgent, hlast]
    simp
  exact Bool.false_ne_true (hclear.symm.trans (hboth.trans hset))

theorem rightCmd_of_classified (hpkt : Ipv4Frame pkt) (h : Classified pkt)
    (htcp : pkt.u8 23 = 0x06) (mem : ℕ → UInt8) {cmd : SessionCmd}
    (hcmd : cmd ∈ sessionCmds allSessions
      (readOver pkt 14 (min 20 (pkt.length - 14)) fun _ => 0)
      (readOver pkt 34 (min 20 (leftOver pkt)) mem)) : RightCmd pkt cmd := by
  have hright := (h allSessions { tcp := mem }).2 cmd
  have hproto := @readOver_protocol pkt (fun _ => 0) (protocol_of_classified hpkt h)
  rw [classify_eq hpkt, classifyIp, if_neg (by rw [hproto, htcp]; decide),
    if_neg (by rw [hproto, htcp]; decide), if_pos ⟨hproto.trans htcp, rfl⟩] at hright
  exact hright hcmd

theorem tcp_of_classified (hpkt : Ipv4Frame pkt) (h : Classified pkt) (htcp : pkt.u8 23 = 0x06) :
    (pkt.u8 14).toNat % 16 = 5 ∧
      (48 ≤ pkt.length ∧ sessionEdge (octetsAt pkt 34) = false ∨
        38 ≤ pkt.length ∧ ipv4Src (octetsAt pkt 14) = ipv4Dst (octetsAt pkt 14)) := by
  -- with options the ports are those of the stack, and need not be those of the frame
  have hihl : (pkt.u8 14).toNat % 16 = 5 := by
    by_contra hopt
    let mem : ℕ → UInt8 := fun i => if i = 13 then 1 else pkt.u8 (transportAt pkt) + 1
    have hmem : readOver pkt 34 (min 20 (leftOver pkt)) mem = mem := by
      funext i
      have hnone : leftOver pkt = 0 := if_neg hopt
      exact readOver_of_le (by omega)
    have hfin : getTcpFin mem = true := by simp [getTcpFin, mem]
    obtain ⟨cmd, hcmd, -, hport, -⟩ := @exists_mem_sessionCmds
      (readOver pkt 14 (min 20 (pkt.length - 14)) fun _ => 0) mem
      (by rw [sessionEdge, hfin, Bool.or_true])
    have hright := rightCmd_of_classified hpkt h htcp mem (hmem.symm ▸ hcmd)
    have hfirst := (List.cons.inj (hport.symm.trans hright.localPort)).1
    have hself : pkt.u8 (transportAt pkt) + 1 = pkt.u8 (transportAt pkt) := hfirst
    exact absurd hself (by simp)
  refine ⟨hihl, ?_⟩
  by_cases hquiet : 48 ≤ pkt.length ∧ sessionEdge (octetsAt pkt 34) = false
  · exact .inl hquiet
  · right
    have hleft : leftOver pkt = pkt.length - 34 := if_pos hihl
    have hat : transportAt pkt = 34 := by rw [transportAt, hihl]
    let mem : ℕ → UInt8 := fun _ => 1
    have hedge : sessionEdge (readOver pkt 34 (min 20 (leftOver pkt)) mem) = true := by
      by_cases hlen : 48 ≤ pkt.length
      · have hset : sessionEdge (octetsAt pkt 34) = true :=
          Bool.eq_true_of_not_eq_false fun hnone => hquiet ⟨hlen, hnone⟩
        have hread : readOver pkt 34 (min 20 (leftOver pkt)) mem 13 = octetsAt pkt 34 13 :=
          readOver_of_lt (by omega)
        rw [sessionEdge, getTcpSyn, getTcpAck, getTcpFin, hread]
        exact hset
      · have hread : readOver pkt 34 (min 20 (leftOver pkt)) mem 13 = 1 :=
          readOver_of_le (by omega)
        rw [sessionEdge, getTcpSyn, getTcpAck, getTcpFin, hread]
        decide
    obtain ⟨cmd, hcmd, hlocal, -, hremote⟩ := @exists_mem_sessionCmds
      (readOver pkt 14 (min 20 (pkt.length - 14)) fun _ => 0) _ hedge
    have hright := rightCmd_of_classified hpkt h htcp mem hcmd
    have hpresent := hright.present
    refine ⟨by omega, ?_⟩
    rw [← hright.localNaddr, ← hright.remoteNaddr, hlocal, hremote]

/-- **A frame is classified rightly, whatever lay on the stack before, exactly if it is well
read.** -/
theorem classified_iff (hpkt : Ipv4Frame pkt) : Classified pkt ↔ WellRead pkt :=
  ⟨fun h => ⟨protocol_of_classified hpkt h, udp_of_classified hpkt h, tcp_of_classified hpkt h⟩,
    WellRead.classified hpkt⟩

def ipv4Frame (ihl protocol : UInt8) (options transport : Bytes) : Bytes :=
  List.replicate 12 2 ++ [8, 0, 0x40 + ihl] ++ List.replicate 8 0 ++ [protocol, 0, 0] ++
    [10, 0, 0, 1, 10, 0, 0, 2] ++ options ++ transport

def waveAgent : Bytes := List.replicate 8 0 ++ [0xcc] ++ List.replicate 14 0 ++ [0xe2]

/-- The second segment of a TCP handshake from port 80 to port 4096. -/
def synAck : Bytes := [0, 80, 16, 0] ++ List.replicate 8 0 ++ [0x50, 0x12] ++ List.replicate 6 0

/-- Without options the WaveAgent packet is well read. -/
theorem classified_iff_waveAgent :
    Classified (ipv4Frame 5 0x11 [] waveAgent) ↔ WellRead (ipv4Frame 5 0x11 [] waveAgent) :=
  classified_iff ⟨by decide, by decide, by decide, by decide⟩

/-- **With options it is missed, and a session is tracked that ends where it begins.** -/
theorem not_classified :
    ¬ Classified (ipv4Frame 6 0x11 [1, 1, 1, 0] waveAgent) ∧
      ¬ Classified (ipv4Frame 5 0x06 [] synAck) := by
  constructor
  · intro h
    have hprio := congrArg Classes.hipriorityPkt (h [] {}).1
    exact absurd hprio (by decide)
  · intro h
    have hcmd : ⟨true, [10, 0, 0, 1], [0, 80], [10, 0, 0, 1], [16, 0]⟩ ∈
        (classify allSessions {} (ipv4Frame 5 0x06 [] synAck)).2 := by decide
    exact absurd ((h allSessions {}).2 _ hcmd).remoteNaddr (by decide)

end Rtl88x2eu.Xmit
