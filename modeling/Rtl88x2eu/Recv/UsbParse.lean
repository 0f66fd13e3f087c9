import Rtl88x2eu.Lib.Transition
import Rtl88x2eu.Recv.Attrib

/-!
# Parsing USB receive buffers

A bulk-in transfer carries several packets, each behind a receive descriptor. `recvbuf2recvframe`
walks over the transfer: it takes a descriptor from the free queue, reads the next receive
descriptor, and returns the descriptor or hands it on with a copy of the packet. The memory goes on
behind the transfer, so that a load past the transfer has a value.

## Main definitions

* `RecvBuf`, `queryRxDesc`, `Answer`
* `Rx`, `Rx.start`, `pass`: the state of `recvbuf2recvframe`, and one pass of its loop
* `Sound`, `PassFits`

## Main results

* `pass_cases`: what a pass does
* `length_le_of_run`, `isSome_pass`: the loop ends
* `recvbuf2recvframe_sound_iff`: the walk is sound exactly if every pass fits
-/

namespace Rtl88x2eu.UsbRecv

/-! ## The receive descriptor -/

/-- A transfer, in the memory from `pbuf` on. -/
structure RecvBuf where
  mem : ℕ → UInt8
  transferLen : ℕ

theorem seqs_ne_zero : 4096 ≠ 0 := by decide

theorem rates_ne_zero : 128 ≠ 0 := by decide

namespace RecvBuf

variable (b : RecvBuf)

def le32 (i : ℕ) : ℕ :=
  (b.mem i).toNat + 256 * (b.mem (i + 1)).toNat + 65536 * (b.mem (i + 2)).toNat +
    16777216 * (b.mem (i + 3)).toNat

def bits (start bitOffset bitLen : ℕ) : ℕ := b.le32 start / 2 ^ bitOffset % 2 ^ bitLen

def flag (start bitOffset : ℕ) : Bool := b.bits start bitOffset 1 = 1

/-- `GET_RX_DESC_*_8822E`, for a normal packet. -/
def rxDesc (p : ℕ) : RxDesc where
  pktLen := b.bits p 0 14
  crc32 := b.flag p 14
  icvErr := b.flag p 15
  security := Fin.ofNat 8 (b.bits p 20 3)
  qos := b.flag p 23
  swdec := b.flag p 27
  tid := Fin.ofNat 16 (b.bits (p + 0x04) 8 4)
  amsdu := b.flag (p + 0x04) 13
  md := b.flag (p + 0x04) 26
  mf := b.flag (p + 0x04) 27
  seq := @Fin.ofNat 4096 ⟨seqs_ne_zero⟩ (b.bits (p + 0x08) 0 12)
  frag := Fin.ofNat 16 (b.bits (p + 0x08) 12 4)
  rxRate := @Fin.ofNat 128 ⟨rates_ne_zero⟩ (b.bits (p + 0x0C) 0 7)

end RecvBuf

inductive RxPacketType
  | normalRx | txReport1 | txReport2 | hisReport | c2hPacket
deriving DecidableEq, Repr

/-- `struct rx_pkt_attrib`, with the fields that the parser needs besides. -/
structure RxInfo where
  attrib : RxPktAttrib := {}
  pktRptType : RxPacketType := .normalRx
  drvinfoSz : ℕ := 0
  shiftSz : ℕ := 0
  physt : Bool := false
deriving DecidableEq, Repr

/-- `rtl8822e_query_rx_desc`: of the descriptor of a C2H packet the length alone is read. -/
def queryRxDesc (b : RecvBuf) (p : ℕ) : RxInfo :=
  if b.flag (p + 0x08) 28 then
    { attrib := { pktLen := b.bits p 0 14 }
      pktRptType := .c2hPacket }
  else
    { attrib := rxdesc2attribute (b.rxDesc p)
      drvinfoSz := b.bits p 16 4 * 8
      shiftSz := b.bits p 24 2
      physt := b.flag p 26 }

def rxdescSize : ℕ := 24

def rnd8 (sz : ℕ) : ℕ := (sz / 8 + if sz % 8 = 0 then 0 else 1) * 8

def RxInfo.pktOffset (a : RxInfo) : ℕ :=
  rxdescSize + a.drvinfoSz + a.shiftSz + a.attrib.pktLen

/-! ## The loop -/

/-- The memory that a load takes from the transfer. -/
inductive Load
  | aggNum | rxDesc | c2h | packet | physt
deriving DecidableEq, Repr

/-- The window of a descriptor. Where the packet was copied, offsets count from the start of the
new buffer; a clone shares the transfer's memory. -/
structure Window where
  clone : Bool
  rxData : ℕ
  rxTail : ℕ
  rxEnd : ℕ
  len : ℕ
deriving DecidableEq, Repr

/-- What the parser does, in order. -/
inductive Event
  | load (what : Load) (start len : ℕ)
  | rtwAllocRecvframe (id : ℕ)
  | rtwFreeRecvframe (id : ℕ)
  /-- `pkt_len` before and after the FCS is taken off. -/
  | fcs (descLen pktLen : ℕ)
  | preRecvEntry (id : ℕ) (attrib : RxPktAttrib) (pdata : ℕ) (w : Window)
  | c2hHandler (start len : ℕ)
deriving DecidableEq, Repr

/-- What the rest of the driver answers in one pass of the loop. -/
structure Answer where
  mpMode : Bool
  monitor : Bool
  /-- `rtl8822e_rx_fcs_appended`. -/
  fcsAppended : Bool
  /-- `rtw_skb_alloc` finds memory, and the buffer's address has these low bits. -/
  skbAlloc : Option (Fin 8)
  skbClone : Bool
  physLoad : ℕ
  /-- The octets of a C2H packet that phydm, halmac and the command thread's copy load. -/
  c2hLoad : ℕ
  /-- What everyone else does with the free queue until the next pass. -/
  others : List ℕ → List ℕ

/-- The loads of `rtl8822e_rxdesc2attribute`: the length and the C2H mark always, and the six words
for a normal packet only. -/
def descLoads (b : RecvBuf) (p : ℕ) : List Event :=
  if b.flag (p + 0x08) 28 then [.load .rxDesc p 4, .load .rxDesc (p + 0x08) 4]
  else [.load .rxDesc p rxdescSize]

/-- `C2H_EXTEND` with the sub-command `C2H_SUB_CMD_ID_CCX_RPT`. -/
def isCcxRpt (b : RecvBuf) (p : ℕ) : Bool := b.bits p 0 8 = 0xff && b.bits p 16 8 = 0x0F

/-- The loads of `rtl8822e_c2h_handler_no_io` of the packet at `p`: the word with the identifier and
the sequence number, and what `process_c2h_event` goes on to. The state of a CCX report is in the
third word, whatever the length of the packet. -/
def c2hLoads (b : RecvBuf) (ans : Answer) (p : ℕ) : List Event :=
  [.load .c2h p 4, if isCcxRpt b p then .load .c2h (p + 8) 4 else .load .c2h p ans.c2hLoad]

/-- The variables of `recvbuf2recvframe`, with its `static u8 buffer_full`, and the free queue. -/
structure Rx where
  bufferFull : Bool
  freeRecvQueue : List ℕ
  /-- `pbuf`, from the start of the transfer. -/
  pbuf : ℕ
  /-- `transfer_len`; an amount below zero ends the loop as zero does. -/
  transferLen : ℕ
  running : Bool
  log : List Event

namespace Rx

def emit (s : Rx) (es : List Event) : Rx := { s with log := s.log ++ es }

def exit (s : Rx) : Rx := { s with running := false }

/-- `rtw_alloc_recvframe`, and the loads of `rtl8822e_query_rx_desc` on what it gives. -/
def alloc (b : RecvBuf) (s : Rx) (id : ℕ) (rest : List ℕ) : Rx :=
  { s.emit (.rtwAllocRecvframe id :: descLoads b s.pbuf) with freeRecvQueue := rest }

def free (s : Rx) (id : ℕ) : Rx :=
  { s.emit [.rtwFreeRecvframe id] with freeRecvQueue := s.freeRecvQueue ++ [id] }

/-- The end of a pass: `pbuf` moves on by the rounded length. -/
def advance (s : Rx) (pktOffset : ℕ) : Rx :=
  let off := rnd8 pktOffset % 2 ^ 16
  { s with
    pbuf := s.pbuf + off
    transferLen := s.transferLen - off
    running := 0 < s.transferLen - off }

/-- Before the first pass `pkt_cnt` is loaded from the first descriptor. -/
def start (b : RecvBuf) (bufferFull : Bool) (freeRecvQueue : List ℕ) : Rx where
  bufferFull := bufferFull
  freeRecvQueue := freeRecvQueue
  pbuf := 0
  transferLen := b.transferLen
  running := true
  log := [.load .aggNum 0x0C 4]

end Rx

/-- The length that `recvbuf2recvframe_proccess_normal_rx` goes on with, sixteen bits wide. -/
def fcsPktLen (ans : Answer) (pktLen : ℕ) : ℕ :=
  if !ans.monitor && ans.fcsAppended then (pktLen + (2 ^ 16 - ieee80211FcsLen)) % 2 ^ 16
  else pktLen

def RxInfo.entryAttrib (a : RxInfo) (ans : Answer) : RxPktAttrib :=
  { a.attrib with pktLen := fcsPktLen ans a.attrib.pktLen }

/-- Where the packet lies in the transfer. -/
def RxInfo.pdata (a : RxInfo) (pbuf : ℕ) : ℕ := pbuf + a.shiftSz + a.drvinfoSz + rxdescSize

def allocSz (a : RxPktAttrib) : ℕ :=
  if a.mfrag ∧ a.fragNum = 0 ∧ a.pktLen ≤ 1650 then 1664 else a.pktLen + 14

/-- `rtw_os_alloc_recvframe`: the loads, and the window before the packet is put into it. -/
def rtwOsAllocRecvframe (ans : Answer) (a : RxPktAttrib) (pdata : ℕ) :
    Option (List Event × Window) :=
  match ans.skbAlloc with
  | some low =>
    let data := 8 - low + if a.qos then 6 else 0
    some ([.load .packet pdata a.pktLen], ⟨false, data, data, allocSz a, 0⟩)
  | none =>
    if a.mfrag ∧ a.fragNum = 0 then none
    else if ans.skbClone then some ([], ⟨true, pdata, pdata, pdata + allocSz a, 0⟩)
    else none

def recvframePut (w : Window) (sz : ℕ) : Window :=
  if w.rxEnd < w.rxTail + sz then w else { w with rxTail := w.rxTail + sz, len := w.len + sz }

/-- `recvbuf2recvframe_proccess_normal_rx`; false is `_FAIL`. -/
def proccessNormalRx (s : Rx) (ans : Answer) (id : ℕ) (a : RxInfo) : Bool × Rx :=
  let attrib := a.entryAttrib ans
  let s := if !ans.monitor && ans.fcsAppended then s.emit [.fcs a.attrib.pktLen attrib.pktLen]
    else s
  match rtwOsAllocRecvframe ans attrib (a.pdata s.pbuf) with
  | none => (false, s.free id)
  | some (loads, w) =>
    let w := recvframePut w attrib.pktLen
    let s := (s.emit loads).emit [.preRecvEntry id attrib (a.pdata s.pbuf) w]
    -- the receive entry loads the PHY status itself
    (true, if a.physt then s.emit [.load .physt (s.pbuf + rxdescSize) ans.physLoad] else s)

def passDesc (maxRecvbufSz : ℕ) (b : RecvBuf) (s : Rx) (ans : Answer) (id : ℕ) : Rx :=
  let a := queryRxDesc b s.pbuf
  if ans.mpMode = false ∧ (a.attrib.crcErr || a.attrib.icvErr) then (s.free id).exit
  else if a.attrib.pktLen = 0 ∨ s.transferLen < a.pktOffset then
    if s.transferLen < a.pktOffset ∧ b.transferLen = maxRecvbufSz then
      { (s.free id).exit with bufferFull := true }
    else (s.free id).exit
  else
    match a.pktRptType with
    | .c2hPacket =>
      ((s.free id).emit (.c2hHandler s.pbuf s.transferLen ::
        c2hLoads b ans (s.pbuf + rxdescSize))).advance a.pktOffset
    | .txReport1 | .txReport2 | .hisReport => (s.free id).advance a.pktOffset
    | .normalRx =>
      match proccessNormalRx s ans id a with
      | (true, s) => s.advance a.pktOffset
      | (false, s) => s.exit

def pass (maxRecvbufSz : ℕ) (b : RecvBuf) (s : Rx) (ans : Answer) : Option Rx :=
  if s.running = false then none
  else if s.bufferFull then some { s.exit with bufferFull := false }
  else
    match s.freeRecvQueue with
    | [] => some s.exit
    | id :: rest =>
      let s := passDesc maxRecvbufSz b (.alloc b s id rest) ans id
      some { s with freeRecvQueue := ans.others s.freeRecvQueue }

/-! ## What is asked of the walk -/

structure Window.Bounded (w : Window) (transferLen pdata pktLen : ℕ) : Prop where
  tail : w.rxTail = w.rxData + pktLen
  len : w.len = pktLen
  endOk : w.rxTail ≤ w.rxEnd
  shared : w.clone = true → w.rxData = pdata ∧ w.rxTail ≤ transferLen

/-- The event keeps within a transfer of `n` octets, and its lengths have not wrapped. -/
def Event.Ok (n : ℕ) : Event → Prop
  | .load _ start len | .c2hHandler start len => start + len ≤ n
  | .fcs descLen pktLen => descLen = pktLen + ieee80211FcsLen
  | .preRecvEntry _ attrib pdata w => w.Bounded n pdata attrib.pktLen
  | _ => True

/-- The descriptor the parser holds after an event; `none` if it takes a second one, or gives away
one that it does not hold. -/
def custody (held : Option ℕ) : Event → Option (Option ℕ)
  | .rtwAllocRecvframe id => if held = none then some (some id) else none
  | .rtwFreeRecvframe id | .preRecvEntry id _ _ _ => if held = some id then some none else none
  | _ => some held

/-- Loads within the transfer, lengths that do not wrap, every descriptor settled once. -/
structure Sound (n : ℕ) (log : List Event) : Prop where
  ok : ∀ e ∈ log, e.Ok n
  /-- Every descriptor taken is handed on or freed, once, before the next one is taken. -/
  settled : log.foldlM custody none = some none

variable {maxRecvbufSz : ℕ} {b : RecvBuf} {s s' : Rx} {ans : Answer}

/-- The parser goes past the descriptor it finds. -/
def Accepted (b : RecvBuf) (s : Rx) (ans : Answer) : Prop :=
  let a := queryRxDesc b s.pbuf
  (ans.mpMode = false → (a.attrib.crcErr || a.attrib.icvErr) = false) ∧
    a.attrib.pktLen ≠ 0 ∧ a.pktOffset ≤ s.transferLen

/-- A packet gets a buffer. -/
def Buffered (ans : Answer) (a : RxPktAttrib) : Prop :=
  ans.skbAlloc.isSome ∨ ¬(a.mfrag ∧ a.fragNum = 0) ∧ ans.skbClone

/-- The octets of a receive descriptor that are loaded. -/
def descOctets (b : RecvBuf) (p : ℕ) : ℕ := if b.flag (p + 0x08) 28 then 12 else rxdescSize

/-- The octets of a C2H packet that are loaded. -/
def c2hOctets (b : RecvBuf) (ans : Answer) (p : ℕ) : ℕ :=
  if isCcxRpt b p then 12 else max 4 ans.c2hLoad

/-- What a pass loads of the descriptor and of the packet is there, and a packet is as long as the
FCS that is taken off it. -/
def DescFits (b : RecvBuf) (s : Rx) (ans : Answer) : Prop :=
  descOctets b s.pbuf ≤ s.transferLen ∧
    (Accepted b s ans →
      let a := queryRxDesc b s.pbuf
      (a.pktRptType = .c2hPacket →
        rxdescSize + c2hOctets b ans (s.pbuf + rxdescSize) ≤ s.transferLen) ∧
      (a.pktRptType = .normalRx →
        (ans.monitor = false → ans.fcsAppended = true → ieee80211FcsLen ≤ a.attrib.pktLen) ∧
        (Buffered ans a.attrib → a.physt = true → rxdescSize + ans.physLoad ≤ s.transferLen)))

/-- A pass that takes a descriptor finds what it loads. -/
def PassFits (b : RecvBuf) (s : Rx) (ans : Answer) : Prop :=
  s.bufferFull = false → s.freeRecvQueue ≠ [] → DescFits b s ans

instance Accepted.decidable : Decidable (Accepted b s ans) :=
  inferInstanceAs (Decidable (_ ∧ _ ∧ _))

instance Buffered.decidable (a : RxPktAttrib) : Decidable (Buffered ans a) :=
  inferInstanceAs (Decidable (_ ∨ _))

instance DescFits.decidable : Decidable (DescFits b s ans) :=
  inferInstanceAs (Decidable (_ ∧ (_ → (_ → _) ∧ (_ → (_ → _ → _) ∧ (_ → _ → _)))))

instance PassFits.decidable : Decidable (PassFits b s ans) :=
  inferInstanceAs (Decidable (_ → _ → _))

theorem RecvBuf.bits_lt (b : RecvBuf) (start bitOffset bitLen : ℕ) :
    b.bits start bitOffset bitLen < 2 ^ bitLen :=
  Nat.mod_lt _ (Nat.two_pow_pos _)

theorem queryRxDesc_pktLen (b : RecvBuf) (p : ℕ) :
    (queryRxDesc b p).attrib.pktLen = b.bits p 0 14 := by
  unfold queryRxDesc
  split_ifs <;> rfl

theorem queryRxDesc_pktRptType (b : RecvBuf) (p : ℕ) :
    (queryRxDesc b p).pktRptType = .c2hPacket ∨ (queryRxDesc b p).pktRptType = .normalRx := by
  unfold queryRxDesc
  split_ifs
  · exact Or.inl rfl
  · exact Or.inr rfl

theorem pktOffset_lt (b : RecvBuf) (p : ℕ) : (queryRxDesc b p).pktOffset < 16536 := by
  have hlen := b.bits_lt p 0 14
  have hdrv := b.bits_lt p 16 4
  have hshift := b.bits_lt p 24 2
  unfold RxInfo.pktOffset rxdescSize queryRxDesc
  split_ifs
  · dsimp only
    omega
  · dsimp only [rxdesc2attribute, RecvBuf.rxDesc]
    omega

theorem rnd8_le (sz : ℕ) : rnd8 sz ≤ sz + 7 := by
  unfold rnd8
  split_ifs <;> omega

theorem rnd8_mod (b : RecvBuf) (p : ℕ) :
    rnd8 (queryRxDesc b p).pktOffset % 2 ^ 16 = rnd8 (queryRxDesc b p).pktOffset := by
  have hlt := pktOffset_lt b p
  have hle := rnd8_le (queryRxDesc b p).pktOffset
  exact Nat.mod_eq_of_lt (by omega)

/-- A packet that is there takes 32 octets at least. -/
theorem le_rnd8_pktOffset {a : RxInfo} (h : a.attrib.pktLen ≠ 0) : 32 ≤ rnd8 a.pktOffset := by
  have hoff : 25 ≤ a.pktOffset := by
    unfold RxInfo.pktOffset rxdescSize
    omega
  unfold rnd8
  split_ifs <;> omega

/-! ## One pass -/

@[simp] theorem Rx.alloc_pbuf (b : RecvBuf) (s : Rx) (id : ℕ) (rest : List ℕ) :
    (Rx.alloc b s id rest).pbuf = s.pbuf := rfl

@[simp] theorem Rx.alloc_transferLen (b : RecvBuf) (s : Rx) (id : ℕ) (rest : List ℕ) :
    (Rx.alloc b s id rest).transferLen = s.transferLen := rfl

def fcsEvents (ans : Answer) (pktLen : ℕ) : List Event :=
  if !ans.monitor && ans.fcsAppended then [.fcs pktLen (fcsPktLen ans pktLen)] else []

/-- What handing a packet on logs. -/
def entryEvents (pbuf : ℕ) (ans : Answer) (id : ℕ) (a : RxInfo) (w : Window) : List Event :=
  .preRecvEntry id (a.entryAttrib ans) (a.pdata pbuf) (recvframePut w (a.entryAttrib ans).pktLen) ::
    if a.physt then [.load .physt (pbuf + rxdescSize) ans.physLoad] else []

/-- What a pass logs of the descriptor `id` that it took, and the length by which it goes on; it
leaves the loop otherwise. -/
inductive DescCase (b : RecvBuf) (s : Rx) (ans : Answer) (id : ℕ) : List Event → Option ℕ → Prop
  | refused (hacc : ¬Accepted b s ans) : DescCase b s ans id [.rtwFreeRecvframe id] none
  | c2h (hacc : Accepted b s ans) (htype : (queryRxDesc b s.pbuf).pktRptType = .c2hPacket) :
      DescCase b s ans id (.rtwFreeRecvframe id :: .c2hHandler s.pbuf s.transferLen ::
        c2hLoads b ans (s.pbuf + rxdescSize)) (some (queryRxDesc b s.pbuf).pktOffset)
  | noBuffer (hacc : Accepted b s ans) (htype : (queryRxDesc b s.pbuf).pktRptType = .normalRx)
      (hbuf : ¬Buffered ans (queryRxDesc b s.pbuf).attrib) :
      DescCase b s ans id
        (fcsEvents ans (queryRxDesc b s.pbuf).attrib.pktLen ++ [.rtwFreeRecvframe id]) none
  | entry {loads : List Event} {w : Window} (hacc : Accepted b s ans)
      (htype : (queryRxDesc b s.pbuf).pktRptType = .normalRx)
      (hbuf : Buffered ans (queryRxDesc b s.pbuf).attrib)
      (halloc : rtwOsAllocRecvframe ans ((queryRxDesc b s.pbuf).entryAttrib ans)
        ((queryRxDesc b s.pbuf).pdata s.pbuf) = some (loads, w)) :
      DescCase b s ans id (fcsEvents ans (queryRxDesc b s.pbuf).attrib.pktLen ++ (loads ++
        entryEvents s.pbuf ans id (queryRxDesc b s.pbuf) w))
        (some (queryRxDesc b s.pbuf).pktOffset)

/-- Where a pass leaves the loop, or goes on to. -/
def Lands (s s' : Rx) : Option ℕ → Prop
  | none => s'.running = false
  | some off => s'.pbuf = s.pbuf + rnd8 off % 2 ^ 16 ∧
      s'.transferLen = s.transferLen - rnd8 off % 2 ^ 16 ∧
      (s'.running = true ↔ 0 < s'.transferLen)

theorem lands_advance (s : Rx) (off : ℕ) : Lands s (s.advance off) (some off) :=
  ⟨rfl, rfl, decide_eq_true_iff⟩

theorem buffered_iff (ans : Answer) (a : RxInfo) (pdata : ℕ) :
    Buffered ans a.attrib ↔ (rtwOsAllocRecvframe ans (a.entryAttrib ans) pdata).isSome := by
  unfold Buffered rtwOsAllocRecvframe RxInfo.entryAttrib
  cases ans.skbAlloc with
  | some low => simp
  | none =>
    dsimp only
    split_ifs <;> simp_all

theorem proccessNormalRx_cases (s : Rx) (ans : Answer) (id : ℕ) (a : RxInfo) :
    (¬Buffered ans a.attrib ∧ ∃ t, proccessNormalRx s ans id a = (false, t) ∧
      t.log = s.log ++ (fcsEvents ans a.attrib.pktLen ++ [.rtwFreeRecvframe id])) ∨
    Buffered ans a.attrib ∧ ∃ t loads w, proccessNormalRx s ans id a = (true, t) ∧
      rtwOsAllocRecvframe ans (a.entryAttrib ans) (a.pdata s.pbuf) = some (loads, w) ∧
      t.pbuf = s.pbuf ∧ t.transferLen = s.transferLen ∧
      t.log = s.log ++ (fcsEvents ans a.attrib.pktLen ++ (loads ++
        entryEvents s.pbuf ans id a w)) := by
  have hfcs : (if !ans.monitor && ans.fcsAppended then
      s.emit [.fcs a.attrib.pktLen (fcsPktLen ans a.attrib.pktLen)] else s) =
      s.emit (fcsEvents ans a.attrib.pktLen) := by
    unfold fcsEvents
    split_ifs
    · rfl
    · simp [Rx.emit]
  have hbuf := buffered_iff ans a (a.pdata s.pbuf)
  unfold proccessNormalRx
  dsimp only
  rw [show (a.entryAttrib ans).pktLen = fcsPktLen ans a.attrib.pktLen from rfl, hfcs]
  change _ ∨ _
  cases halloc : rtwOsAllocRecvframe ans (a.entryAttrib ans) (a.pdata s.pbuf) with
  | none =>
    rw [halloc] at hbuf
    have halloc' : rtwOsAllocRecvframe ans (a.entryAttrib ans)
      (a.pdata (s.emit (fcsEvents ans a.attrib.pktLen)).pbuf) = none := halloc
    rw [halloc']
    exact Or.inl ⟨by simp [hbuf], _, rfl, List.append_assoc _ _ _⟩
  | some r =>
    obtain ⟨loads, w⟩ := r
    rw [halloc] at hbuf
    have halloc' : rtwOsAllocRecvframe ans (a.entryAttrib ans)
      (a.pdata (s.emit (fcsEvents ans a.attrib.pktLen)).pbuf) = some (loads, w) := halloc
    rw [halloc']
    refine Or.inr ⟨by simp [hbuf], _, loads, w, rfl, rfl, ?_⟩
    unfold entryEvents
    cases a.physt <;> simp [Rx.emit, RxInfo.entryAttrib]

/-- **What a pass does with the descriptor it took.** -/
theorem passDesc_cases (maxRecvbufSz : ℕ) (b : RecvBuf) (s : Rx) (ans : Answer) (id : ℕ) :
    ∃ es off, DescCase b s ans id es off ∧
      (passDesc maxRecvbufSz b s ans id).log = s.log ++ es ∧
      Lands s (passDesc maxRecvbufSz b s ans id) off := by
  unfold passDesc
  dsimp only
  by_cases herr : ans.mpMode = false ∧ ((queryRxDesc b s.pbuf).attrib.crcErr ||
      (queryRxDesc b s.pbuf).attrib.icvErr) = true
  · rw [if_pos herr]
    refine ⟨_, none, .refused fun hacc => ?_, rfl, rfl⟩
    have hno := hacc.1 herr.1
    rw [herr.2] at hno
    cases hno
  rw [if_neg herr]
  by_cases hlen : (queryRxDesc b s.pbuf).attrib.pktLen = 0 ∨
      s.transferLen < (queryRxDesc b s.pbuf).pktOffset
  · rw [if_pos hlen]
    refine ⟨[.rtwFreeRecvframe id], none, .refused fun hacc => ?_, ?_⟩
    · rcases hlen with hlen | hlen
      · exact hacc.2.1 hlen
      · exact absurd hacc.2.2 (Nat.not_le.mpr hlen)
    · split_ifs <;> exact ⟨rfl, rfl⟩
  rw [if_neg hlen]
  rw [not_or, Nat.not_lt] at hlen
  have hacc : Accepted b s ans := by
    refine ⟨fun hmp => ?_, hlen.1, hlen.2⟩
    rw [not_and, Bool.not_eq_true] at herr
    exact herr hmp
  rcases queryRxDesc_pktRptType b s.pbuf with htype | htype
  · rw [htype]
    exact ⟨_, _, .c2h hacc htype, List.append_assoc _ _ _, lands_advance _ _⟩
  · rw [htype]
    dsimp only
    rcases proccessNormalRx_cases s ans id (queryRxDesc b s.pbuf) with
      ⟨hbuf, t, ht, hlog⟩ | ⟨hbuf, t, loads, w, ht, halloc, hpbuf, htransferLen, hlog⟩
    · rw [ht]
      exact ⟨_, none, .noBuffer hacc htype hbuf, hlog, rfl⟩
    · rw [ht]
      refine ⟨_, _, .entry hacc htype hbuf halloc, hlog, ?_⟩
      have hlands := lands_advance t (queryRxDesc b s.pbuf).pktOffset
      unfold Lands at hlands ⊢
      rwa [hpbuf, htransferLen] at hlands

/-- **What a pass does**: it leaves the loop at once, or takes a descriptor. -/
theorem pass_cases (h : pass maxRecvbufSz b s ans = some s') :
    s.running = true ∧
      ((s.bufferFull = true ∨ s.freeRecvQueue = []) ∧ s'.running = false ∧ s'.log = s.log ∨
      s.bufferFull = false ∧ ∃ id rest es off, s.freeRecvQueue = id :: rest ∧
        DescCase b s ans id es off ∧ Lands s s' off ∧
        s'.log = s.log ++ (.rtwAllocRecvframe id :: (descLoads b s.pbuf ++ es))) := by
  unfold pass at h
  by_cases hrun : s.running = false
  · rw [if_pos hrun] at h
    cases h
  rw [if_neg hrun] at h
  refine ⟨by simpa using hrun, ?_⟩
  by_cases hfull : s.bufferFull = true
  · rw [if_pos hfull] at h
    obtain rfl := Option.some.inj h
    exact Or.inl ⟨Or.inl hfull, rfl, rfl⟩
  rw [if_neg hfull] at h
  cases hqueue : s.freeRecvQueue with
  | nil =>
    rw [hqueue] at h
    obtain rfl := Option.some.inj h
    exact Or.inl ⟨Or.inr rfl, rfl, rfl⟩
  | cons id rest =>
    rw [hqueue] at h
    obtain rfl := Option.some.inj h
    obtain ⟨es, off, hcase, hlog, hlands⟩ :=
      passDesc_cases maxRecvbufSz b (.alloc b s id rest) ans id
    refine Or.inr ⟨by simpa using hfull, id, rest, es, off, rfl, ?_, ?_, ?_⟩
    · cases hcase with
      | refused hacc => exact .refused hacc
      | c2h hacc htype => exact .c2h hacc htype
      | noBuffer hacc htype hbuf => exact .noBuffer hacc htype hbuf
      | entry hacc htype hbuf halloc => exact .entry hacc htype hbuf halloc
    · cases off <;> exact hlands
    · rw [show _ = _ from hlog]
      exact List.append_assoc _ _ _

section Events

variable {n id : ℕ} {es : List Event} {off : Option ℕ} {a : RxInfo}

theorem fcsEvents_ok (hlen : a.attrib.pktLen < 2 ^ 14) :
    (∀ e ∈ fcsEvents ans a.attrib.pktLen, e.Ok n) ↔
      (ans.monitor = false → ans.fcsAppended = true → ieee80211FcsLen ≤ a.attrib.pktLen) := by
  unfold fcsEvents fcsPktLen
  split_ifs with h
  · simp only [Bool.and_eq_true, Bool.not_eq_true'] at h
    simp only [List.mem_singleton, forall_eq, h, forall_const, Event.Ok, ieee80211FcsLen]
    omega
  · simp only [Bool.and_eq_true, Bool.not_eq_true', not_and] at h
    exact iff_of_true (fun e he => absurd he List.not_mem_nil)
      fun hmonitor hfcs => absurd hfcs (h hmonitor)

theorem fcsPktLen_le (hlen : a.attrib.pktLen < 2 ^ 14)
    (h : ans.monitor = false → ans.fcsAppended = true → ieee80211FcsLen ≤ a.attrib.pktLen) :
    (a.entryAttrib ans).pktLen ≤ a.attrib.pktLen := by
  show fcsPktLen ans a.attrib.pktLen ≤ a.attrib.pktLen
  unfold fcsPktLen
  split_ifs with hfcs
  · simp only [Bool.and_eq_true, Bool.not_eq_true'] at hfcs
    have hle := h hfcs.1 hfcs.2
    unfold ieee80211FcsLen at hle ⊢
    omega
  · exact le_rfl

theorem rtwOsAllocRecvframe_bounded {attrib : RxPktAttrib} {pdata : ℕ} {loads : List Event}
    {w : Window} (h : rtwOsAllocRecvframe ans attrib pdata = some (loads, w))
    (hle : pdata + attrib.pktLen ≤ n) :
    (∀ e ∈ loads, e.Ok n) ∧ (recvframePut w attrib.pktLen).Bounded n pdata attrib.pktLen := by
  have hsize : attrib.pktLen + 14 ≤ allocSz attrib := by
    unfold allocSz
    split_ifs <;> omega
  unfold rtwOsAllocRecvframe at h
  cases halloc : ans.skbAlloc with
  | some low =>
    rw [halloc] at h
    obtain ⟨rfl, rfl⟩ := Prod.mk.inj (Option.some.inj h)
    have hroom : 8 - (low : ℕ) + (if attrib.qos then 6 else 0) ≤ 14 := by split_ifs <;> omega
    refine ⟨by simpa [Event.Ok] using hle, ?_⟩
    unfold recvframePut
    rw [if_neg (by dsimp only; omega)]
    exact ⟨rfl, Nat.zero_add _, by dsimp only; omega, fun hclone => by cases hclone⟩
  | none =>
    rw [halloc] at h
    dsimp only at h
    split_ifs at h
    obtain ⟨rfl, rfl⟩ := Prod.mk.inj (Option.some.inj h)
    refine ⟨fun e he => absurd he List.not_mem_nil, ?_⟩
    unfold recvframePut
    rw [if_neg (by dsimp only; omega)]
    exact ⟨rfl, Nat.zero_add _, by dsimp only; omega, fun _ => ⟨rfl, hle⟩⟩

theorem entryEvents_ok {w : Window}
    (hw : (recvframePut w (a.entryAttrib ans).pktLen).Bounded n (a.pdata s.pbuf)
      (a.entryAttrib ans).pktLen) (hn : s.pbuf + s.transferLen = n) :
    (∀ e ∈ entryEvents s.pbuf ans id a w, e.Ok n) ↔
      (a.physt = true → rxdescSize + ans.physLoad ≤ s.transferLen) := by
  unfold entryEvents
  cases a.physt with
  | false => simpa [Event.Ok] using hw
  | true =>
    simp only [if_true, List.mem_cons, List.not_mem_nil, or_false, forall_eq_or_imp, forall_eq,
      Event.Ok, hw, true_and, forall_const]
    omega

theorem descLoads_ok (hn : s.pbuf + s.transferLen = n) :
    (∀ e ∈ descLoads b s.pbuf, e.Ok n) ↔ descOctets b s.pbuf ≤ s.transferLen := by
  unfold descLoads descOctets
  split_ifs
  · simp only [List.mem_cons, List.not_mem_nil, or_false, forall_eq_or_imp, forall_eq, Event.Ok]
    omega
  · simp only [List.mem_singleton, forall_eq, Event.Ok]
    omega

theorem c2hLoads_ok (hn : s.pbuf + s.transferLen = n) :
    (∀ e ∈ c2hLoads b ans (s.pbuf + rxdescSize), e.Ok n) ↔
      rxdescSize + c2hOctets b ans (s.pbuf + rxdescSize) ≤ s.transferLen := by
  unfold c2hLoads c2hOctets
  simp only [List.mem_cons, List.not_mem_nil, or_false, forall_eq_or_imp, forall_eq]
  split_ifs
  · simp only [Event.Ok]
    omega
  · simp only [Event.Ok]
    omega

/-- **What a pass logs is in order exactly if what it loads is there.** -/
theorem DescCase.ok_iff (h : DescCase b s ans id es off) (hn : s.pbuf + s.transferLen = n) :
    (∀ e ∈ .rtwAllocRecvframe id :: (descLoads b s.pbuf ++ es), e.Ok n) ↔ DescFits b s ans := by
  have hlen : (queryRxDesc b s.pbuf).attrib.pktLen < 2 ^ 14 := by
    rw [queryRxDesc_pktLen]
    exact b.bits_lt _ _ _
  have hhead : (∀ e ∈ .rtwAllocRecvframe id :: (descLoads b s.pbuf ++ es), e.Ok n) ↔
      descOctets b s.pbuf ≤ s.transferLen ∧ ∀ e ∈ es, e.Ok n := by
    rw [List.forall_mem_cons, List.forall_mem_append, descLoads_ok hn]
    exact and_iff_right trivial
  rw [hhead]
  unfold DescFits
  refine and_congr_right fun hroom => ?_
  cases h with
  | refused hacc =>
    refine iff_of_true (fun e he => ?_) fun hacc' => absurd hacc' hacc
    rw [List.mem_singleton.mp he]
    trivial
  | c2h hacc htype =>
    simp only [hacc, htype, forall_const, List.forall_mem_cons, c2hLoads_ok hn, reduceCtorEq,
      false_imp_iff, and_true]
    rw [and_iff_right (show Event.Ok n (.rtwFreeRecvframe id) from trivial)]
    exact and_iff_right (show s.pbuf + s.transferLen ≤ n from hn.le)
  | noBuffer hacc htype hbuf =>
    simp only [hacc, htype, hbuf, forall_const, reduceCtorEq, false_imp_iff, true_and, and_true,
      List.forall_mem_append, fcsEvents_ok hlen]
    refine and_iff_left fun e he => ?_
    rw [List.mem_singleton.mp he]
    trivial
  | @entry loads w hacc htype hbuf halloc =>
    simp only [hacc, htype, hbuf, forall_const, reduceCtorEq, false_imp_iff, true_and,
      List.forall_mem_append, fcsEvents_ok hlen]
    refine and_congr_right fun hfcs => ?_
    have hle : (queryRxDesc b s.pbuf).pdata s.pbuf +
        ((queryRxDesc b s.pbuf).entryAttrib ans).pktLen ≤ n := by
      have hoff := hacc.2.2
      have hpkt := fcsPktLen_le hlen hfcs
      unfold RxInfo.pktOffset at hoff
      unfold RxInfo.pdata
      omega
    obtain ⟨hloads, hw⟩ := rtwOsAllocRecvframe_bounded halloc hle
    rw [and_iff_right hloads]
    exact entryEvents_ok hw hn

theorem foldlM_custody_fcsEvents (held : Option ℕ) (pktLen : ℕ) :
    (fcsEvents ans pktLen).foldlM custody held = some held := by
  unfold fcsEvents
  split_ifs <;> rfl

theorem foldlM_custody_descLoads (held : Option ℕ) (p : ℕ) :
    (descLoads b p).foldlM custody held = some held := by
  unfold descLoads
  split_ifs <;> rfl

theorem foldlM_custody_c2hLoads (held : Option ℕ) (p : ℕ) :
    (c2hLoads b ans p).foldlM custody held = some held := by
  unfold c2hLoads
  split_ifs <;> rfl

/-- A pass settles the descriptor it takes. -/
theorem DescCase.settled (h : DescCase b s ans id es off) :
    (.rtwAllocRecvframe id :: (descLoads b s.pbuf ++ es)).foldlM custody none = some none := by
  have hhead : (.rtwAllocRecvframe id :: (descLoads b s.pbuf ++ es)).foldlM custody none =
      es.foldlM custody (some id) := by
    simp [custody, List.foldlM_append, foldlM_custody_descLoads]
  rw [hhead]
  cases h with
  | refused hacc => simp [custody]
  | c2h hacc htype => simp [custody, foldlM_custody_c2hLoads]
  | noBuffer hacc htype hbuf =>
    simp [List.foldlM_append, foldlM_custody_fcsEvents, custody]
  | @entry loads w hacc htype hbuf halloc =>
    have hloads : loads.foldlM custody (some id) = some (some id) := by
      unfold rtwOsAllocRecvframe at halloc
      cases hskb : ans.skbAlloc with
      | some low =>
        rw [hskb] at halloc
        obtain ⟨rfl, rfl⟩ := Prod.mk.inj (Option.some.inj halloc)
        rfl
      | none =>
        rw [hskb] at halloc
        dsimp only at halloc
        split_ifs at halloc
        obtain ⟨rfl, rfl⟩ := Prod.mk.inj (Option.some.inj halloc)
        rfl
    unfold entryEvents
    simp only [List.foldlM_append, foldlM_custody_fcsEvents, Option.bind_eq_bind, Option.bind_some,
      hloads]
    cases (queryRxDesc b s.pbuf).physt <;> simp [custody]

end Events

/-! ## The walk -/

/-- Between two passes `pbuf` and `transfer_len` describe the same transfer, and the parser holds no
descriptor. -/
structure WalkInv (b : RecvBuf) (s : Rx) : Prop where
  rest : s.running = true → s.pbuf + s.transferLen = b.transferLen
  settled : s.log.foldlM custody none = some none

theorem walkInv_start (b : RecvBuf) (bufferFull : Bool) (freeRecvQueue : List ℕ) :
    WalkInv b (.start b bufferFull freeRecvQueue) :=
  ⟨fun _ => Nat.zero_add _, rfl⟩

/-- The loop goes on with a shorter rest. -/
theorem Lands.rest (hacc : Accepted b s ans)
    (h : Lands s s' (some (queryRxDesc b s.pbuf).pktOffset)) (hrun : s'.running = true) :
    s'.pbuf + s'.transferLen = s.pbuf + s.transferLen ∧ s'.transferLen + 32 ≤ s.transferLen := by
  obtain ⟨hpbuf, htransferLen, hrunning⟩ := h
  have hpos := hrunning.mp hrun
  have hoff := le_rnd8_pktOffset hacc.2.1
  rw [rnd8_mod] at hpbuf htransferLen
  omega

theorem accepted_of_running (h : pass maxRecvbufSz b s ans = some s') (hrun : s'.running = true) :
    Accepted b s ans ∧ Lands s s' (some (queryRxDesc b s.pbuf).pktOffset) := by
  obtain ⟨-, ⟨-, hexit, -⟩ | ⟨-, id, rest, es, off, -, hcase, hlands, -⟩⟩ := pass_cases h
  · rw [hexit] at hrun
    cases hrun
  · cases hcase with
    | refused hacc => exact absurd (hlands.symm.trans hrun) Bool.false_ne_true
    | c2h hacc htype => exact ⟨hacc, hlands⟩
    | noBuffer hacc htype hbuf => exact absurd (hlands.symm.trans hrun) Bool.false_ne_true
    | entry hacc htype hbuf halloc => exact ⟨hacc, hlands⟩

/-- **The loop ends**: every pass but the last takes 32 octets of the transfer at least. -/
theorem length_le_of_run {es : List Answer}
    (h : Transition.run (pass maxRecvbufSz b) s es = some s') :
    es.length ≤ s.transferLen / 32 + 1 := by
  induction es generalizing s with
  | nil => exact Nat.zero_le _
  | cons ans es ih =>
    obtain ⟨m, hm, hrun⟩ := Transition.run_cons.mp h
    by_cases hrunning : m.running = true
    · obtain ⟨hacc, hlands⟩ := accepted_of_running hm hrunning
      have hle := (hlands.rest hacc hrunning).2
      have hes := ih hrun
      rw [List.length_cons]
      omega
    · cases es with
      | nil => exact Nat.le_add_left _ _
      | cons ans' es =>
        obtain ⟨m', hm', -⟩ := Transition.run_cons.mp hrun
        exact absurd (pass_cases hm').1 hrunning

/-- The loop does not get stuck. -/
theorem isSome_pass (hrun : s.running = true) : (pass maxRecvbufSz b s ans).isSome := by
  unfold pass
  rw [if_neg (by simp [hrun])]
  split_ifs
  · rfl
  · cases s.freeRecvQueue <;> rfl

theorem WalkInv.pass (hinv : WalkInv b s) (h : pass maxRecvbufSz b s ans = some s') :
    WalkInv b s' ∧
      ((∀ e ∈ s'.log, e.Ok b.transferLen) ↔
        (∀ e ∈ s.log, e.Ok b.transferLen) ∧ PassFits b s ans) := by
  obtain ⟨hrunning, ⟨hend, hexit, hlog⟩ | ⟨hfull, id, rest, es, off, hqueue, hcase, -, hlog⟩⟩ :=
    pass_cases h
  · refine ⟨⟨fun hrun => ?_, by rw [hlog]; exact hinv.settled⟩, ?_⟩
    · rw [hexit] at hrun
      cases hrun
    · rw [hlog]
      refine (and_iff_left fun hfull hqueue => ?_).symm
      rcases hend with hend | hend
      · rw [hfull] at hend
        cases hend
      · exact absurd hend hqueue
  · refine ⟨⟨fun hrun => ?_, ?_⟩, ?_⟩
    · obtain ⟨hacc, hlands⟩ := accepted_of_running h hrun
      rw [(hlands.rest hacc hrun).1, hinv.rest hrunning]
    · rw [hlog, List.foldlM_append, hinv.settled]
      exact hcase.settled
    · have hfits : PassFits b s ans ↔ DescFits b s ans := by
        simp [PassFits, hfull, hqueue]
      rw [hlog, List.forall_mem_append, hcase.ok_iff (hinv.rest hrunning), hfits]

/-- **The walk over a transfer ends, and it is sound exactly if every pass finds what it loads.** -/
theorem recvbuf2recvframe_sound_iff (maxRecvbufSz : ℕ) (b : RecvBuf) (bufferFull : Bool)
    (freeRecvQueue : List ℕ) (es : List Answer) (s : Rx)
    (hrun : Transition.run (pass maxRecvbufSz b) (.start b bufferFull freeRecvQueue) es = some s) :
    es.length ≤ b.transferLen / 32 + 1 ∧
    (s.running = true → ∀ ans, (pass maxRecvbufSz b s ans).isSome) ∧
    (Sound b.transferLen s.log ↔
      16 ≤ b.transferLen ∧ Transition.Meets (pass maxRecvbufSz b) (PassFits b)
        (.start b bufferFull freeRecvQueue) es) := by
  refine ⟨length_le_of_run hrun, fun h ans => isSome_pass h, ?_⟩
  have hinv := walkInv_start b bufferFull freeRecvQueue
  have hstep : (∀ e ∈ s.log, e.Ok b.transferLen) ↔
      (∀ e ∈ (Rx.start b bufferFull freeRecvQueue).log, e.Ok b.transferLen) ∧
        Transition.Meets (pass maxRecvbufSz b) (PassFits b)
          (.start b bufferFull freeRecvQueue) es :=
    Transition.run_iff_meets (P := fun s => ∀ e ∈ s.log, e.Ok b.transferLen)
      (fun s e s' => WalkInv.pass) hinv hrun
  have hsettled := Transition.run_invariant (fun s e s' hs h => (WalkInv.pass hs h).1) hinv hrun
  have hstart : (∀ e ∈ (Rx.start b bufferFull freeRecvQueue).log, e.Ok b.transferLen) ↔
      16 ≤ b.transferLen := by
    simp [Rx.start, Event.Ok]
  rw [← hstart, ← hstep]
  exact ⟨fun h => h.ok, fun h => ⟨h, hsettled.settled⟩⟩

/-- Nothing fails and nothing else happens. -/
def plainAnswer : Answer where
  mpMode := false
  monitor := false
  fcsAppended := true
  skbAlloc := some 0
  skbClone := false
  physLoad := 28
  c2hLoad := 0
  others := id

def eightOctets (transferLen : ℕ) : RecvBuf where
  mem i := if i = 0 then 8 else 0
  transferLen := transferLen

/-- The packet alone: the walk is sound. -/
theorem recvbuf2recvframe_sound_eightOctets :
    ∃ s, Transition.run (pass 32768 (eightOctets 32)) (.start (eightOctets 32) false [0])
        [plainAnswer] = some s ∧ s.running = false ∧ Sound 32 s.log := by
  obtain ⟨s, hrun, hend⟩ : ∃ s, Transition.run (pass 32768 (eightOctets 32))
      (.start (eightOctets 32) false [0]) [plainAnswer] = some s ∧ s.running = false :=
    Transition.exists_run_of_any (by decide +kernel)
  refine ⟨s, hrun, hend, ?_⟩
  have hsound := (recvbuf2recvframe_sound_iff 32768 (eightOctets 32) false [0] [plainAnswer] s
    hrun).2.2
  exact hsound.mpr (by decide +kernel)

/-- Eight octets more, and the second pass loads a descriptor of which a third is there. -/
theorem not_recvbuf2recvframe_sound :
    ∃ s, Transition.run (pass 32768 (eightOctets 40)) (.start (eightOctets 40) false [0, 1])
        [plainAnswer, plainAnswer] = some s ∧ s.running = false ∧ ¬Sound 40 s.log := by
  obtain ⟨s, hrun, hend, hload⟩ : ∃ s, Transition.run (pass 32768 (eightOctets 40))
      (.start (eightOctets 40) false [0, 1]) [plainAnswer, plainAnswer] = some s ∧
        s.running = false ∧ .load .rxDesc 32 24 ∈ s.log :=
    Transition.exists_run_of_any (by decide +kernel)
  refine ⟨s, hrun, hend, fun hsound => ?_⟩
  have hle : 32 + 24 ≤ 40 := hsound.ok _ hload
  omega

end Rtl88x2eu.UsbRecv
