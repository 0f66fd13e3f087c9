import Rtl88x2eu.Xmit.Coalesce

/-!
# Handing a frame to the USB core

`update_txdesc` puts the transmit descriptor before a packet. Between the two there are 8 octets of
room, which the descriptor is moved into unless the transfer would then fill its last bulk packet.
`rtw_dump_xframe` does this for every fragment of a frame, and submits each of them.

## Main definitions

* `TxHal`, `updateTxdesc`, `dumpFragment`, `Submission`

## Main results

* `dumpFragment_whole`: a frame that is not cut is submitted as it stands
-/

namespace Rtl88x2eu.Xmit

open Memory

inductive UsbSpeed
  | full | high | super
deriving DecidableEq, Repr

/-- What the descriptors depend on beside the frame. -/
structure TxHal where
  usbSpeed : UsbSpeed := .high
  /-- `registrypriv.mp_mode`. -/
  mpMode : Bool := false
  /-- The fields of a descriptor that say nothing about where packets stand, by frame and size. -/
  otherFields : XmitFrame → ℕ → Bytes := fun _ _ => []

def bulkSize : UsbSpeed → ℕ
  | .super => 1024
  | .high => 512
  | .full => 64

def rtwUsbBulkSizeBoundary (hal : TxHal) (bufLen : ℕ) : Bool := bufLen % bulkSize hal.usbSpeed = 0

/-- The octets of a descriptor: the size of the packet, the room before it, the number of packets
behind it. -/
def txdescOctet (hal : TxHal) (f : XmitFrame) (sz i : ℕ) : UInt8 :=
  let other := (hal.otherFields f sz).u8 i
  match i with
  | 0 => UInt8.ofNat sz
  | 1 => UInt8.ofNat (sz / 256)
  | 7 => other &&& 0xe0 ||| UInt8.ofNat (f.pktOffset % 32)
  | 31 => if 1 < f.aggNum then UInt8.ofNat f.aggNum else 0
  | _ => other

def txdesc (hal : TxHal) (f : XmitFrame) (sz : ℕ) : Bytes :=
  (List.range txdescSize).map (txdescOctet hal f sz)

@[simp] theorem length_txdesc (hal : TxHal) (f : XmitFrame) (sz : ℕ) :
    (txdesc hal f sz).length = txdescSize := by
  rw [txdesc, List.length_map, List.length_range]

/-- What `update_txdesc` leaves. -/
structure Described where
  pull : Bool
  mem : Mem
  frame : XmitFrame

/-- The descriptor, and whether it was moved. -/
def updateTxdesc (hal : TxHal) (f : XmitFrame) (m : Mem) (pmem sz : ℕ) (baggPkt : Bool) :
    Described :=
  let pull := !hal.mpMode && !baggPkt && !rtwUsbBulkSizeBoundary hal (txdescSize + sz)
  let f := if pull then { f with pktOffset := f.pktOffset - 1 } else f
  ⟨pull, write m (if pull then pmem + packetOffsetSz else pmem) (txdesc hal f sz), f⟩

/-- What the USB core is given: an address range of a buffer. -/
structure Submission where
  /-- `pxmitbuf`. -/
  buf : ℕ
  addr : ℕ
  len : ℕ
  /-- The octets of the buffer. -/
  mem : Mem
  /-- The room behind the descriptor, in units of 8 octets. -/
  pktOffset : ℕ

/-- The octets that are sent. -/
def Submission.bytes (s : Submission) : Bytes := read s.mem s.addr s.len

def Submission.header (s : Submission) : ℕ := txdescSize + s.pktOffset * packetOffsetSz

def Submission.packet (s : Submission) : Bytes := s.bytes.drop s.header

theorem Submission.packet_eq {s : Submission} (h : s.header ≤ s.len) :
    s.packet = read s.mem (s.addr + s.header) (s.len - s.header) := drop_read h

/-- The loop variables of `rtw_dump_xframe`. -/
structure Dump where
  mem : Mem
  frame : XmitFrame
  memAddr : ℕ

/-- `sz`: the size of fragment `t`, as a 32-bit value. -/
def dumpSize (a : Adapter) (p : PktAttrib) (t : ℕ) : ℕ :=
  if t + 1 = p.nrFrags then p.lastTxcmdsz
  else (((a.fragLen : ℤ) - 4 - if a.securitypriv.swEncrypt then 0 else (p.icvLen : ℤ)) %
    2 ^ 32).toNat

/-- A 32-bit value read as signed. -/
def signed32 (x : ℕ) : ℤ := if x % 2 ^ 32 < 2 ^ 31 then x % 2 ^ 32 else (x % 2 ^ 32 : ℤ) - 2 ^ 32

def nextMemAddr (memAddr wSz : ℕ) : ℕ := rnd4 (memAddr + signed32 wSz).toNat

def qselH2cCmd : ℕ := 0x13

/-- One round of the loop of `rtw_dump_xframe`: the descriptor of fragment `t` is written, and a
region is submitted, whose address is that of the frame. -/
def dumpFragment (hal : TxHal) (a : Adapter) (buf t : ℕ) (d : Dump) : Dump × Submission :=
  let p := d.frame.attrib
  let sz := dumpSize a p t
  if p.qsel = qselH2cCmd then
    let m := write d.mem d.memAddr (txdesc hal { d.frame with pktOffset := 0, aggNum := 1 } sz)
    let wSz := (sz + txdescSize) % 2 ^ 32
    (⟨m, d.frame, nextMemAddr d.memAddr wSz⟩, ⟨buf, d.frame.bufAddr, wSz, m, 0⟩)
  else
    let r := updateTxdesc hal d.frame d.mem d.memAddr sz false
    if r.pull then
      let memAddr := d.memAddr + packetOffsetSz
      let f := { r.frame with bufAddr := memAddr }
      let wSz := (sz + txdescSize) % 2 ^ 32
      (⟨r.mem, f, nextMemAddr memAddr wSz⟩, ⟨buf, memAddr, wSz, r.mem, f.pktOffset⟩)
    else
      let wSz := (sz + txdescSize + packetOffsetSz) % 2 ^ 32
      (⟨r.mem, r.frame, nextMemAddr d.memAddr wSz⟩,
        ⟨buf, r.frame.bufAddr, wSz, r.mem, r.frame.pktOffset⟩)

section Whole

variable (hal : TxHal) (a : Adapter) (buf : ℕ) (f : XmitFrame) (m : Mem)

theorem dumpSize_last {p : PktAttrib} {t : ℕ} (h : t + 1 = p.nrFrags) :
    dumpSize a p t = p.lastTxcmdsz := if_pos h

theorem read_updateTxdesc {pmem start : ℕ} (sz n : ℕ) (bagg : Bool)
    (h : pmem + txdescSize + packetOffsetSz ≤ start) :
    read (updateTxdesc hal f m pmem sz bagg).mem start n = read m start n := by
  unfold updateTxdesc
  dsimp only
  rw [read_write_of_disjoint]
  right
  rw [length_txdesc]
  split_ifs <;> omega

theorem pktOffset_updateTxdesc (pmem sz : ℕ) (bagg : Bool) :
    (updateTxdesc hal f m pmem sz bagg).frame = { f with
      pktOffset := if (updateTxdesc hal f m pmem sz bagg).pull then f.pktOffset - 1
        else f.pktOffset } := by
  unfold updateTxdesc
  dsimp only
  split_ifs <;> rfl

/-- **A frame that is not cut is submitted as it stands**: the packet that is sent is the one in the
buffer. -/
theorem dumpFragment_whole (hqsel : f.attrib.qsel ≠ qselH2cCmd) (hone : f.attrib.nrFrags = 1)
    (hoffset : f.pktOffset = 1) (hlen : f.attrib.lastTxcmdsz + 56 < 2 ^ 32) :
    (dumpFragment hal a buf 0 ⟨m, f, f.bufAddr⟩).2.packet =
      read m (f.bufAddr + txdescSize + packetOffsetSz) f.attrib.lastTxcmdsz := by
  have hsize : dumpSize a f.attrib 0 = f.attrib.lastTxcmdsz := dumpSize_last a hone.symm
  have hdesc : txdescSize = 48 := rfl
  have hroom : packetOffsetSz = 8 := rfl
  have hframe := pktOffset_updateTxdesc hal f m f.bufAddr f.attrib.lastTxcmdsz false
  have hread (n : ℕ) := read_updateTxdesc hal f m f.attrib.lastTxcmdsz n false
    (show f.bufAddr + txdescSize + packetOffsetSz ≤ f.bufAddr + txdescSize + packetOffsetSz from
      le_rfl)
  simp only [dumpFragment, if_neg hqsel, hsize]
  split_ifs with hpull
  · rw [if_pos hpull, hoffset] at hframe
    rw [Submission.packet_eq] <;> simp only [Submission.header, hframe]
    · rw [← hread]
      congr 1
      omega
    · omega
  · rw [if_neg hpull] at hframe
    rw [Submission.packet_eq] <;> simp only [Submission.header, hframe, hoffset]
    · rw [← hread]
      congr 1
      omega
    · omega

end Whole

end Rtl88x2eu.Xmit
