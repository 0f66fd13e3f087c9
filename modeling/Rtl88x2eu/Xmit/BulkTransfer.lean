import Rtl88x2eu.Xmit.Layout
import Rtl88x2eu.Xmit.TxQueues

/-!
# The packets of a bulk transfer

`rtl8822eu_xmitframe_complete` builds the frames of a queue into one buffer, each behind a
descriptor and from a multiple of 8 octets on. The first descriptor has 8 octets of room behind it
and counts the frames. It is moved into the room where the transfer would fill its last bulk packet.

## Main definitions

* `xmitframeComplete`, `bulkPackets`

## Main results

* `bulkPackets_complete`: the device finds the frames that were built, in their order
-/

namespace Rtl88x2eu.Xmit

open Memory

variable {S F : Type*}

/-- Frames are built in a buffer. -/
def usbBuilder (hal : TxHal) (c : TxCrypto) : TxBuilder (Adapter × Mem) where
  coalesce s f :=
    match rtwXmitframeCoalesce c s.1 s.2 f with
    | some r => (r.res, (r.adapter, r.mem), r.frame)
    | none => (false, s, f)
  updateTxdesc s f sz bagg :=
    let r := updateTxdesc hal f s.2 f.bufAddr sz bagg
    ((s.1, r.mem), r.frame)

/-- The end of a transfer: what the USB core is given. -/
def closeTransfer (hal : TxHal) (bulkSize buf : ℕ) (v : AggVars (Adapter × Mem))
    (f : XmitFrame) : Submission :=
  let f := { f with aggNum := v.aggNum }
  let (f, len) :=
    if v.pbufTail % bulkSize = 0 then
      ({ f with bufAddr := f.bufAddr + packetOffsetSz, pktOffset := f.pktOffset - 1 },
        v.pbufTail - packetOffsetSz)
    else (f, v.pbufTail)
  let r := updateTxdesc hal f v.built.2 f.bufAddr f.attrib.lastTxcmdsz true
  ⟨buf, f.bufAddr, len, r.mem, f.pktOffset⟩

/-- `rtl8822eu_xmitframe_complete` on the first frame; none where it is not built. -/
def xmitframeComplete [DecidableEq S] [DecidableEq F] (hal : TxHal) (c : TxCrypto) (w : TxPriv S F)
    (psta : S) (a : Adapter) (m : Mem) (buf : ℕ) (first : XmitFrame) :
    Option (Submission × TxPriv S F) :=
  let B := usbBuilder hal c
  match B.coalesce (a, m) { first with bufAddr := 0, aggNum := 1, pktOffset := 1 } with
  | (false, _, _) => none
  | (true, built, f) =>
    let (v, w') := aggregate B w psta f built
    some (closeTransfer hal w.usbBulkOutSize buf v f, w')

/-- The frames that wait for the station in the category of a frame. -/
def TxPriv.behind (w : TxPriv S F) (psta : S) (f : XmitFrame) : List F :=
  w.backlog.pending (psta, (aggServq f.attrib.priority).1)

/-- The packets behind so many descriptors: each tells its size and the room behind it. -/
def bulkWalk : ℕ → Bytes → List Bytes
  | 0, _ => []
  | n + 1, b =>
    let hdr := txdescSize + (b.u8 7 &&& 0x1f).toNat * packetOffsetSz
    (b.drop hdr).take (b.le16 0) :: bulkWalk n (b.drop (rnd8 (hdr + b.le16 0)))

/-- The packets that the descriptors tell. -/
def bulkPackets (b : Bytes) : List Bytes := bulkWalk (max 1 (b.u8 31).toNat) b

/-- The frame is made as the driver makes it, and is not cut. -/
structure Buildable (a : Adapter) (f : XmitFrame) : Prop where
  ready : Ready f.attrib f.pkt
  one : OneFragment a f

/-- The frame is built to these octets, wherever it stands, under the keys of the adapter. -/
def PacketOf (c : TxCrypto) (a : Adapter) (f : XmitFrame) (p : Bytes) : Prop :=
  ∃ a' m bufAddr aggNum pktOffset r, SameKeys a a' ∧
    rtwXmitframeCoalesce c a' m { f with
      bufAddr := bufAddr, aggNum := aggNum, pktOffset := pktOffset } = some r ∧ r.res = true ∧
    p = read r.mem (bufAddr + (txdescSize + pktOffset * packetOffsetSz)) (wlanPktSize f.attrib)

section Descriptors

variable {hal : TxHal} {f : XmitFrame} {m m' : Mem} {addr sz off n len : ℕ}

/-- A descriptor at `addr`. -/
structure Describes (m : Mem) (addr sz off : ℕ) : Prop where
  size : (m addr).toNat + 256 * (m (addr + 1)).toNat = sz
  room : (m (addr + 7) &&& 0x1f).toNat = off

theorem le_rnd8 (x : ℕ) : x ≤ rnd8 x := by
  unfold rnd8
  split <;> omega

theorem rnd8_mod (x : ℕ) : rnd8 x % 8 = 0 := Nat.mul_mod_left _ _

theorem rnd8_add_of_dvd {x : ℕ} (h : addr % 8 = 0) : rnd8 (addr + x) = addr + rnd8 x := by
  unfold rnd8
  split <;> split <;> omega

theorem updateTxdesc_agg : updateTxdesc hal f m addr sz true =
    ⟨false, write m addr (txdesc hal f sz), f⟩ := by
  simp [updateTxdesc]

theorem write_txdesc (hal : TxHal) (f : XmitFrame) (m : Mem) (addr sz : ℕ) {i : ℕ}
    (hi : i < txdescSize) :
    write m addr (txdesc hal f sz) (addr + i) = txdescOctet hal f sz i := by
  rw [write_of_mem (by rwa [length_txdesc])]
  simp [txdesc]

theorem describes_txdesc (hal : TxHal) (m : Mem) (addr : ℕ) (hsz : sz < 65536)
    (hoff : f.pktOffset ≤ 1) : Describes (write m addr (txdesc hal f sz)) addr sz f.pktOffset where
  size := by
    have hfirst := write_txdesc hal f m addr sz (show 0 < txdescSize by decide)
    rw [Nat.add_zero] at hfirst
    rw [hfirst, write_txdesc _ _ _ _ _ (by decide)]
    simp only [txdescOctet, UInt8.toNat_ofNat']
    omega
  room := by
    rw [write_txdesc _ _ _ _ _ (by decide)]
    -- the bits above the room say something else
    have hmask (x y : UInt8) : (x &&& 0xe0 ||| y) &&& 0x1f = y &&& 0x1f := by
      have hdisj : (0xe0 : UInt8).toBitVec &&& (0x1f : UInt8).toBitVec = 0#8 := by decide
      apply UInt8.eq_of_toBitVec_eq
      rw [UInt8.toBitVec_and, UInt8.toBitVec_or, UInt8.toBitVec_and, BitVec.and_or_distrib_right,
        BitVec.and_assoc, hdisj, BitVec.and_zero, BitVec.zero_or, UInt8.toBitVec_and]
    simp only [txdescOctet, hmask]
    obtain h | h : f.pktOffset = 0 ∨ f.pktOffset = 1 := by omega
    all_goals rw [h]; rfl

theorem Describes.of_agree {b : ℕ} (h : Describes m addr sz off) (hagree : AgreeBelow b m m')
    (hb : addr + 7 < b) : Describes m' addr sz off where
  size := by rw [hagree addr (by omega), hagree (addr + 1) (by omega), h.size]
  room := by rw [hagree (addr + 7) hb, h.room]

theorem Describes.bulkWalk (h : Describes m addr sz off)
    (hlen : txdescSize + off * packetOffsetSz + sz ≤ len) :
    bulkWalk (n + 1) (read m addr len) =
      read m (addr + (txdescSize + off * packetOffsetSz)) sz ::
        bulkWalk n (read m (addr + rnd8 (txdescSize + off * packetOffsetSz + sz))
          (len - rnd8 (txdescSize + off * packetOffsetSz + sz))) := by
  have hdesc : txdescSize = 48 := rfl
  have hdrop (k : ℕ) : (read m addr len).drop k = read m (addr + k) (len - k) := by
    rcases le_total k len with hk | hk
    · exact drop_read hk
    · rw [List.drop_eq_nil_of_le (by rwa [length_read]), Nat.sub_eq_zero_of_le hk, read_zero]
  have hsize : Bytes.le16 (read m addr len) 0 = sz := by
    rw [Bytes.le16, u8_read (by omega), u8_read (by omega)]
    exact h.size
  have hroom : (Bytes.u8 (read m addr len) 7 &&& 0x1f).toNat = off := by
    rw [u8_read (by omega)]
    exact h.room
  rw [Xmit.bulkWalk]
  simp only [hsize, hroom, hdrop]
  rw [take_read (by omega)]

end Descriptors

section Aggregation

variable {hal : TxHal} {c : TxCrypto} {a : Adapter} {w : TxPriv S F}

theorem SameKeys.trans {a a' a'' : Adapter} (h : SameKeys a a') (h' : SameKeys a' a'') :
    SameKeys a a'' :=
  ⟨h'.securitypriv.trans h.securitypriv, h'.fragLen.trans h.fragLen,
    fun addr => (h'.stations addr).trans (h.stations addr)⟩

/-- Where a frame stands decides nothing. -/
theorem Buildable.placed {f : XmitFrame} (h : Buildable a f) (bufAddr aggNum pktOffset : ℕ) :
    Buildable a { f with bufAddr := bufAddr, aggNum := aggNum, pktOffset := pktOffset } :=
  ⟨h.ready, h.one⟩

theorem Buildable.congr {a' : Adapter} {f : XmitFrame} (h : Buildable a f) (hkeys : SameKeys a a') :
    Buildable a' f where
  ready := h.ready
  one := by
    unfold OneFragment mpduLen
    rw [hkeys.fragLen]
    exact h.one

/-- What building a frame does: the octets before it stay. -/
structure Built (c : TxCrypto) (a : Adapter) (f : XmitFrame) (s s' : Adapter × Mem) (res : Bool)
    (f' : XmitFrame) : Prop where
  keys : SameKeys a s'.1
  below : AgreeBelow f.memStart s.2 s'.2
  packet : res = true → PacketOf c a f (read s'.2 f.memStart (wlanPktSize f.attrib)) ∧
    f' = { f with
      attrib := { f.attrib with
        seqnum := f'.attrib.seqnum, ampduEn := f'.attrib.ampduEn, nrFrags := 1
        lastTxcmdsz := wlanPktSize f.attrib } }

theorem built_coalesce {s s' : Adapter × Mem} {f f' : XmitFrame} {res : Bool}
    (hf : Buildable a f) (hkeys : SameKeys a s.1)
    (h : (usbBuilder hal c).coalesce s f = (res, s', f')) : Built c a f s s' res f' := by
  simp only [usbBuilder] at h
  rcases hr : rtwXmitframeCoalesce c s.1 s.2 f with _ | r <;> rw [hr] at h <;>
    simp only [Prod.mk.injEq] at h <;> obtain ⟨rfl, rfl, rfl⟩ := h
  · exact ⟨hkeys, .refl _ _, fun h => absurd h Bool.false_ne_true⟩
  · obtain ⟨hbelow, hwhole⟩ := coalesce_one (hf.congr hkeys).ready (hf.congr hkeys).one hr
    exact ⟨hkeys.trans (coalesce_sameKeys hr), hbelow, fun hres =>
      ⟨⟨s.1, s.2, f.bufAddr, f.aggNum, f.pktOffset, r, hkeys, hr, hres, rfl⟩,
        (hwhole hres).frame⟩⟩

/-- The packets `ps` of the frames `sent` are laid from `v.pbuf` on. -/
structure Loaded (c : TxCrypto) (a : Adapter) (frames : F → TxFrame S) (xs : List F)
    (v v' : AggVars (Adapter × Mem)) (sent : List F) (ps : List Bytes) : Prop where
  agree : AgreeBelow v.pbuf v.built.2 v'.built.2
  sub : sent.Sublist xs
  packets : List.Forall₂ (fun x p => PacketOf c a (frames x).xmit p) sent ps
  aggNum : v'.aggNum = v.aggNum + ps.length
  le : v'.aggNum ≤ maxTxAggPacketNumber
  tail : if ps = [] then v'.pbufTail = v.pbufTail
    else v.pbuf ≤ v'.pbufTail ∧ v'.pbufTail ≤ maxXmitbufSz
  walk : bulkWalk ps.length (read v'.built.2 v.pbuf (v'.pbufTail - v.pbuf)) = ps

variable {frames : F → TxFrame S} {xs sent : List F} {ps : List Bytes} {x : F}
  {v v' : AggVars (Adapter × Mem)}

theorem Loaded.stop (hbuilt : v'.built = v.built) (hnum : v'.aggNum = v.aggNum)
    (htail : v'.pbufTail = v.pbufTail) (hle : v.aggNum ≤ maxTxAggPacketNumber) :
    Loaded c a frames xs v v' [] [] where
  agree := hbuilt ▸ .refl _ _
  sub := List.nil_sublist _
  packets := .nil
  aggNum := hnum
  le := hnum ▸ hle
  tail := htail
  walk := rfl

/-- Building a frame fails, which leaves the octets before it. -/
theorem Loaded.skip {built : Adapter × Mem} (hbelow : AgreeBelow v.pbuf v.built.2 built.2)
    (h : Loaded c a frames xs { v with built := built } v' sent ps) :
    Loaded c a frames (x :: xs) v v' sent ps where
  agree := hbelow.trans h.agree
  sub := h.sub.cons _
  packets := h.packets
  aggNum := h.aggNum
  le := h.le
  tail := h.tail
  walk := h.walk

/-- One packet, and those behind it. -/
theorem Loaded.cons {u : AggVars (Adapter × Mem)} {sz : ℕ} (hsz : sz < 65536)
    (hdvd : v.pbuf % 8 = 0) (hbelow : AgreeBelow v.pbuf v.built.2 u.built.2)
    (hdesc : Describes u.built.2 v.pbuf sz 0)
    (hpacket : PacketOf c a (frames x).xmit (read u.built.2 (v.pbuf + txdescSize) sz))
    (hnum : u.aggNum = v.aggNum + 1) (htail : u.pbufTail = v.pbuf + (sz + txdescSize))
    (hpbuf : u.pbuf = rnd8 u.pbufTail) (hmax : u.pbuf ≤ maxXmitbufSz)
    (h : Loaded c a frames xs u v' sent ps) :
    Loaded c a frames (x :: xs) v v' (x :: sent)
      (read u.built.2 (v.pbuf + txdescSize) sz :: ps) := by
  have hle := le_rnd8 u.pbufTail
  have h48 : txdescSize = 48 := rfl
  have hend : u.pbufTail ≤ v'.pbufTail ∧ v'.pbufTail ≤ maxXmitbufSz := by
    have := h.tail
    split_ifs at this <;> omega
  have hstep : v.pbuf + rnd8 (txdescSize + 0 * packetOffsetSz + sz) = u.pbuf := by
    rw [← rnd8_add_of_dvd hdvd, hpbuf, htail]
    congr 1
    omega
  have hread : read v'.built.2 (v.pbuf + txdescSize) sz = read u.built.2 (v.pbuf + txdescSize) sz :=
    h.agree.read_eq (by omega)
  refine ⟨hbelow.trans (h.agree.mono (by omega)), h.sub.cons_cons _, .cons hpacket h.packets, ?_,
    h.le, ?_, ?_⟩
  · rw [h.aggNum, hnum, List.length_cons]
    omega
  · rw [if_neg (List.cons_ne_nil _ _)]
    omega
  · rw [List.length_cons, (hdesc.of_agree h.agree (by omega)).bulkWalk (by omega),
      Nat.sub_sub, hstep, Nat.zero_mul, Nat.add_zero, hread, h.walk]

/-- The first descriptor stands at `base`, with so much room behind it that the packet stays. -/
theorem Loaded.bulkPackets {f : XmitFrame} {base sz : ℕ} (h : Loaded c a frames xs v v' sent ps)
    (hnum : v.aggNum = 1) (hpbuf : v.pbuf = rnd8 v.pbufTail)
    (htail : v.pbufTail = sz + (txdescSize + packetOffsetSz)) (hsz : sz < 65536)
    (hbase : base + f.pktOffset * packetOffsetSz = packetOffsetSz) (hf : f.aggNum = v'.aggNum) :
    bulkPackets (read (write v'.built.2 base (txdesc hal f sz)) base (v'.pbufTail - base)) =
      read v.built.2 (txdescSize + packetOffsetSz) sz :: ps := by
  have h48 : txdescSize = 48 := rfl
  have h8 : packetOffsetSz = 8 := rfl
  have h255 : maxTxAggPacketNumber = 255 := rfl
  have hle := le_rnd8 v.pbufTail
  have hend : v.pbufTail ≤ v'.pbufTail := by
    have := h.tail
    split_ifs at this <;> omega
  obtain ⟨hoff, hdvd⟩ : f.pktOffset ≤ 1 ∧ base % 8 = 0 := by
    rw [h8] at hbase
    omega
  have hroom : txdescSize + f.pktOffset * packetOffsetSz + sz + base = v.pbufTail := by omega
  have hstep : base + rnd8 (txdescSize + f.pktOffset * packetOffsetSz + sz) = v.pbuf := by
    rw [← rnd8_add_of_dvd hdvd, hpbuf, ← hroom, Nat.add_comm base]
  have hcount : max 1 (Bytes.u8 (read (write v'.built.2 base (txdesc hal f sz)) base
      (v'.pbufTail - base)) 31).toNat = ps.length + 1 := by
    have := h.aggNum
    have := h.le
    rw [u8_read (by omega), write_txdesc _ _ _ _ _ (by decide)]
    simp only [txdescOctet, hf]
    split_ifs
    · rw [UInt8.toNat_ofNat']
      omega
    · have : (0 : UInt8).toNat = 0 := rfl
      omega
  have hdesc := describes_txdesc hal v'.built.2 base hsz hoff
  have hread {start n : ℕ} (hstart : txdescSize + packetOffsetSz ≤ start) :
      read (write v'.built.2 base (txdesc hal f sz)) start n = read v'.built.2 start n :=
    read_write_of_disjoint (.inr (by rw [length_txdesc]; omega))
  have hpacket : base + (txdescSize + f.pktOffset * packetOffsetSz) =
      txdescSize + packetOffsetSz := by omega
  rw [Xmit.bulkPackets, hcount, hdesc.bulkWalk (by omega), Nat.sub_sub, hstep, hpacket,
    hread le_rfl, hread (by omega), h.walk, h.agree.read_eq (by omega)]

theorem closeTransfer_eq (hal : TxHal) (bulkSize buf : ℕ) (v : AggVars (Adapter × Mem))
    {f : XmitFrame} (haddr : f.bufAddr = 0) (hoff : f.pktOffset = 1) :
    ∃ base f', base + f'.pktOffset * packetOffsetSz = packetOffsetSz ∧ f'.aggNum = v.aggNum ∧
      (closeTransfer hal bulkSize buf v f).len = v.pbufTail - base ∧
      (closeTransfer hal bulkSize buf v f).bytes = read
        (write v.built.2 base (txdesc hal f' f.attrib.lastTxcmdsz)) base (v.pbufTail - base) := by
  unfold closeTransfer
  dsimp only
  split_ifs
  · refine ⟨packetOffsetSz, { f with aggNum := v.aggNum, bufAddr := f.bufAddr + packetOffsetSz
                                     pktOffset := f.pktOffset - 1 }, ?_, rfl, rfl, ?_⟩
    · simp [hoff]
    · simp only [Submission.bytes, updateTxdesc_agg, haddr, Nat.zero_add]
  · refine ⟨0, { f with aggNum := v.aggNum }, ?_, rfl, rfl, ?_⟩
    · simp [hoff]
    · simp only [Submission.bytes, updateTxdesc_agg, haddr, Nat.sub_zero]

theorem closeTransfer_short {bulkSize buf : ℕ} {f : XmitFrame} (hbulk : packetOffsetSz < bulkSize)
    (hlong : packetOffsetSz < v.pbufTail) :
    (closeTransfer hal bulkSize buf v f).len % bulkSize ≠ 0 := by
  unfold closeTransfer
  dsimp only
  split_ifs with hfull
  · -- two multiples of the size of a bulk packet are not 8 octets apart
    intro hshort
    have hdvd := Nat.dvd_sub (Nat.dvd_of_mod_eq_zero hfull) (Nat.dvd_of_mod_eq_zero hshort)
    rw [Nat.sub_sub_self hlong.le] at hdvd
    exact absurd (Nat.le_of_dvd (by decide) hdvd) (not_le.mpr hbulk)
  · exact hfull

variable [DecidableEq S] [DecidableEq F]

theorem countDesc_fst (v : AggVars (Adapter × Mem)) (bulkSize descNum : ℕ) :
    (v.countDesc bulkSize descNum).1 = { v with
      descCount := (v.countDesc bulkSize descNum).1.descCount
      bulkPtr := (v.countDesc bulkSize descNum).1.bulkPtr } := by
  unfold AggVars.countDesc
  split_ifs <;> rfl

theorem exists_loaded (hal : TxHal) (c : TxCrypto) (qsel : ℕ) (k : Fin 5) (i : S × TxServq)
    (hnodup : xs.Nodup) (hframes : ∀ x ∈ xs, w.frames x = frames x)
    (hok : ∀ x ∈ xs, Buildable a (frames x).xmit)
    (hkeys : SameKeys a v.built.1) (hdvd : v.pbuf % 8 = 0)
    (hnum : v.aggNum < maxTxAggPacketNumber) :
    ∃ sent ps, Loaded c a frames xs v (aggregateLoop (usbBuilder hal c) qsel k i xs v w).1
      sent ps := by
  induction xs generalizing v w with
  | nil => exact ⟨[], [], .stop rfl rfl rfl hnum.le⟩
  | cons x xs ih =>
    obtain ⟨hx, hnodup⟩ := List.nodup_cons.mp hnodup
    obtain ⟨hframe, hframes⟩ := List.forall_mem_cons.mp hframes
    obtain ⟨hbuild, hok⟩ := List.forall_mem_cons.mp hok
    have hrest (f : TxFrame S) : ∀ y ∈ xs, ((w.take k i x).setFrame x f).frames y = frames y :=
      fun y hy => (Function.update_of_ne (by rintro rfl; exact hx hy) _ _).trans (hframes y hy)
    rw [aggregateLoop, hframe]
    dsimp only
    split
    swap
    · exact ⟨[], [], .stop rfl rfl rfl hnum.le⟩
    split
    · exact ⟨[], [], .stop rfl rfl rfl hnum.le⟩
    rename_i hmax
    rcases hc : (usbBuilder hal c).coalesce v.built
      { (frames x).xmit with bufAddr := v.pbuf, aggNum := 0, pktOffset := 0 } with
      ⟨_ | _, built, f⟩ <;>
      have hbuilt := built_coalesce (hbuild.placed v.pbuf 0 0) hkeys hc
    · -- the frame is freed, and the next one takes its place
      obtain ⟨sent, ps, h⟩ := ih (v := { v with built := built })
        (w := (w.take k i x).setFrame x _) hnodup (hrest _) hok hbuilt.keys hdvd hnum
      exact ⟨sent, ps, h.skip (hbuilt.below.mono (Nat.le_add_right _ _))⟩
    dsimp only
    -- the frame is behind the others, whether the loop goes on or not
    have hcons {u r : AggVars (Adapter × Mem)}
        (hbu : u.built = ((usbBuilder hal c).updateTxdesc built f f.attrib.lastTxcmdsz true).1)
        (hnu : u.aggNum = v.aggNum + 1)
        (htu : u.pbufTail = v.pbuf + (wlanPktSize (frames x).xmit.attrib + txdescSize))
        (hpu : u.pbuf = rnd8 u.pbufTail) (h : ∃ sent ps, Loaded c a frames xs u r sent ps) :
        ∃ sent ps, Loaded c a frames (x :: xs) v r sent ps := by
      obtain ⟨sent, ps, h⟩ := h
      obtain ⟨hpacket, hf⟩ := hbuilt.packet rfl
      have haddr : f.bufAddr = v.pbuf := by rw [hf]
      have hoff : f.pktOffset = 0 := by rw [hf]
      have hsize : f.attrib.lastTxcmdsz = wlanPktSize (frames x).xmit.attrib := by rw [hf]
      have hmem : u.built.2 = write built.2 v.pbuf (txdesc hal f
          (wlanPktSize (frames x).xmit.attrib)) := by
        rw [hbu, ← hsize, ← haddr]
        exact congrArg Described.mem updateTxdesc_agg
      have hfit : u.pbuf ≤ maxXmitbufSz := by
        rw [hpu, htu]
        exact not_lt.mp hmax
      have hsz : wlanPktSize (frames x).xmit.attrib < 65536 := by
        have := le_rnd8 u.pbufTail
        have : maxXmitbufSz = 20480 := rfl
        omega
      have hread : read u.built.2 (v.pbuf + txdescSize) (wlanPktSize (frames x).xmit.attrib) =
          read built.2 (v.pbuf + txdescSize) (wlanPktSize (frames x).xmit.attrib) := by
        rw [hmem, read_write_of_disjoint (.inr (by rw [length_txdesc]))]
      exact ⟨_, _, .cons hsz hdvd ((hbuilt.below.mono (Nat.le_add_right _ _)).trans
        (hmem ▸ agreeBelow_write le_rfl)) (hmem ▸ hoff ▸ describes_txdesc _ _ _ hsz (by omega))
        (hread ▸ hpacket) hnu htu hpu hfit h⟩
    split
    next hlast => exact hcons rfl rfl rfl rfl ⟨[], [], .stop rfl rfl rfl hlast.le⟩
    next hlast =>
      rcases hcd : AggVars.countDesc _ _ _ with ⟨u, _ | _⟩ <;>
        have hcount := (congrArg Prod.fst hcd).symm.trans (countDesc_fst _ _ _) <;>
        dsimp only at hcount ⊢
      · refine hcons (by rw [hcount]) (by rw [hcount]) (by rw [hcount]; rfl) (by rw [hcount])
          (ih hnodup (hrest _) hok ?_ ?_ ?_) <;> rw [hcount]
        · exact hbuilt.keys
        · exact rnd8_mod _
        · exact lt_of_le_of_ne hnum hlast
      · refine hcons (by rw [hcount]) (by rw [hcount]) (by rw [hcount]; rfl) (by rw [hcount])
          ⟨[], [], .stop rfl rfl rfl ?_⟩
        rw [hcount]
        exact hnum

/-- What is built behind a first frame of `len` octets. -/
def firstBuilt (w : TxPriv S F) (built : Adapter × Mem) (len : ℕ) : AggVars (Adapter × Mem) :=
  ⟨built, 1, rnd8 len, len, 0, w.usbBulkOutSize⟩

theorem exists_loaded_first (hal : TxHal) (c : TxCrypto) {psta : S} {f : XmitFrame}
    {built : Adapter × Mem} (hnodup : (w.behind psta f).Nodup)
    (hok : ∀ x ∈ w.behind psta f, Buildable a (w.frames x).xmit)
    (hkeys : SameKeys a built.1) (hnum : f.aggNum = 1) :
    ∃ sent ps, Loaded c a w.frames (w.behind psta f)
      (firstBuilt w built (wlanPktSize f.attrib + hwHdrOffset f))
      (aggregate (usbBuilder hal c) w psta f built).1 sent ps := by
  unfold aggregate
  rw [hnum]
  dsimp only
  rcases hcd : AggVars.countDesc _ _ _ with ⟨u, _ | _⟩ <;>
    have hcount := (congrArg Prod.fst hcd).symm.trans (countDesc_fst _ _ _) <;>
    dsimp only at hcount ⊢
  · obtain ⟨sent, ps, h⟩ := exists_loaded (v := u) (w := w) hal c f.attrib.qsel
      (aggServq f.attrib.priority).2 (psta, (aggServq f.attrib.priority).1) hnodup
      (fun _ _ => rfl) hok (by rw [hcount]; exact hkeys) (by rw [hcount]; exact rnd8_mod _)
      (by rw [hcount]; exact (by decide : 1 < maxTxAggPacketNumber))
    rw [hcount] at h ⊢
    exact ⟨sent, ps, h.agree, h.sub, h.packets, h.aggNum, h.le, h.tail, h.walk⟩
  · rw [hcount]
    exact ⟨[], [], .stop rfl rfl rfl (by decide : 1 ≤ maxTxAggPacketNumber)⟩

/-- **The device finds the frames that were built, in their order**: the first one and then frames
of the queue. A short packet ends the transfer. -/
theorem bulkPackets_complete {psta : S} {m : Mem} {buf : ℕ} {first : XmitFrame} {s : Submission}
    {w' : TxPriv S F} (hfirst : Buildable a first) (hsize : wlanPktSize first.attrib < 65536)
    (hnodup : (w.behind psta first).Nodup)
    (hqueue : ∀ x ∈ w.behind psta first, Buildable a (w.frames x).xmit)
    (hbulk : packetOffsetSz < w.usbBulkOutSize)
    (h : xmitframeComplete hal c w psta a m buf first = some (s, w')) :
    s.len % w.usbBulkOutSize ≠ 0 ∧ ∃ sent p ps,
      sent.Sublist (w.behind psta first) ∧ PacketOf c a first p ∧
      List.Forall₂ (fun x p => PacketOf c a (w.frames x).xmit p) sent ps ∧
      bulkPackets s.bytes = p :: ps ∧ ps.length < maxTxAggPacketNumber ∧
      (sent ≠ [] → s.len ≤ maxXmitbufSz) := by
  unfold xmitframeComplete at h
  dsimp only at h
  rcases hc : (usbBuilder hal c).coalesce (a, m)
    { first with bufAddr := 0, aggNum := 1, pktOffset := 1 } with ⟨_ | _, built, f⟩ <;>
    rw [hc] at h
  · cases h
  have hbuilt := built_coalesce (hfirst.placed 0 1 1) (.refl a) hc
  obtain ⟨hpacket, hf⟩ := hbuilt.packet rfl
  have hbehind : w.behind psta f = w.behind psta first := by rw [hf]; rfl
  have hnum : f.aggNum = 1 := by rw [hf]
  rw [← hbehind] at hnodup hqueue ⊢
  obtain ⟨sent, ps, hl⟩ := exists_loaded_first hal c hnodup hqueue hbuilt.keys hnum
  obtain ⟨rfl, -⟩ := Prod.mk.inj (Option.some.inj h)
  generalize (aggregate (usbBuilder hal c) w psta f built).1 = v at hl ⊢
  have hlen : wlanPktSize f.attrib = wlanPktSize first.attrib := by rw [hf]; rfl
  have hhdr : hwHdrOffset f = txdescSize + packetOffsetSz := by rw [hf]; rfl
  have haddr : f.bufAddr = 0 := by rw [hf]
  have hoff : f.pktOffset = 1 := by rw [hf]
  have hsz : f.attrib.lastTxcmdsz = wlanPktSize first.attrib := by rw [hf]
  have htail : (firstBuilt w built (wlanPktSize f.attrib + hwHdrOffset f)).pbufTail =
      wlanPktSize first.attrib + (txdescSize + packetOffsetSz) := by rw [← hlen, ← hhdr]; rfl
  have hlong : packetOffsetSz < v.pbufTail ∧ (sent ≠ [] → v.pbufTail ≤ maxXmitbufSz) := by
    have hle := le_rnd8 (wlanPktSize f.attrib + hwHdrOffset f)
    have hroom : packetOffsetSz < hwHdrOffset f := by rw [hhdr]; decide
    have htail := hl.tail
    split_ifs at htail with hnil
    · obtain rfl := List.forall₂_nil_right_iff.mp (hnil ▸ hl.packets)
      refine ⟨?_, fun h => absurd rfl h⟩
      rw [htail]
      exact lt_of_lt_of_le hroom (Nat.le_add_left _ _)
    · exact ⟨lt_of_lt_of_le (lt_of_lt_of_le hroom (Nat.le_add_left _ _)) (hle.trans htail.1),
        fun _ => htail.2⟩
  obtain ⟨base, f', hbase, hnum', hlen', hbytes⟩ :=
    closeTransfer_eq hal w.usbBulkOutSize buf v haddr hoff
  refine ⟨?_, sent, _, ps, hl.sub, hpacket, hl.packets, ?_, ?_, ?_⟩
  · exact closeTransfer_short hbulk hlong.1
  · rw [hbytes, hsz]
    exact hl.bulkPackets rfl rfl htail hsize hbase hnum'
  · have hcount := hl.aggNum ▸ hl.le
    exact lt_of_lt_of_le (Nat.lt_add_of_pos_left Nat.one_pos) hcount
  · intro hsent
    rw [hlen']
    exact (Nat.sub_le _ _).trans (hlong.2 hsent)

def twoWaiting : TxPriv Bool ℕ :=
  { twoStas with
    frames := fun _ => { xmit := ccmpFrame 3 }
    backlog := { (Backlog.empty : Backlog (Bool × TxServq) (Fin 5) ℕ) with
      pending := fun i => if i = (false, .be) then [0, 1] else [] } }

theorem ccmpFrame_buildable (n : ℕ) (hn : n ≤ 2000) :
    Buildable (ccmpAdapter 2346) (ccmpFrame n) where
  ready := ccmpFrame_ready n
  one := .inr (by
    rw [(ccmpFrame_ready n).length_payload]
    exact hn.trans (by decide : 2000 ≤ mpduLen (ccmpAdapter 2346) (ccmpFrame 0).attrib true))

theorem bulkPackets_complete_two :
    ∃ s w' p q, xmitframeComplete {} nullCrypto twoWaiting false (ccmpAdapter 2346) (fun _ => 0) 0
        (ccmpFrame 5) = some (s, w') ∧ s.len % 512 ≠ 0 ∧ bulkPackets s.bytes = [p, q] ∧
      PacketOf nullCrypto (ccmpAdapter 2346) (ccmpFrame 5) p ∧
      PacketOf nullCrypto (ccmpAdapter 2346) (ccmpFrame 3) q := by
  have hrun : (xmitframeComplete {} nullCrypto twoWaiting false (ccmpAdapter 2346) (fun _ => 0) 0
      (ccmpFrame 5)).any (fun r => (bulkPackets r.1.bytes).length = 2) = true := by
    decide +kernel
  obtain ⟨⟨s, w'⟩, hs, hlen⟩ := (Option.any_eq_true _ _).mp hrun
  obtain ⟨hshort, sent, p, ps, -, hp, hps, hparse, -, -⟩ := bulkPackets_complete
    (ccmpFrame_buildable 5 (by decide)) (by decide) (by decide)
    (fun x _ => ccmpFrame_buildable 3 (by decide)) (by decide) hs
  rw [hparse, List.length_cons, decide_eq_true_eq, Nat.add_right_cancel_iff] at hlen
  obtain ⟨q, rfl⟩ := List.length_eq_one_iff.mp hlen
  obtain ⟨x, -, hq, -, -⟩ := List.forall₂_cons_right_iff.mp hps
  exact ⟨s, w', p, q, hs, hshort, hparse, hp, hq⟩

end Aggregation

end Rtl88x2eu.Xmit
