import Rtl88x2eu.Lib.Transition
import Rtl88x2eu.Nat25.Checksum
import Rtl88x2eu.Nat25.Db

/-!
# The shortcut for one client

`rtw_br_client_tx` leaves out the insert, and `nat25_handle_frame` the lookup, for the client whose
entry is kept beside the database. The two functions are here for IPv4 frames, with the shortcut and
without it, and the two runs over the same frames are compared byte by byte. Frames are linear, so
that `skb_linearize` has nothing to do, and `nat25_disable` is off, so that `br_ip` is not read.

## Main definitions

* `brClientTx`, `nat25HandleFrame`: the two functions
* `bridgeRun`, `InStep`

## Main results

* `Alike.step`: one frame in step gives the same bytes and leaves the databases alike
* `sameBytes_of_meets`: a run does, with and without the shortcut
* `not_sameBytes`: a client with two addresses
-/

namespace Rtl88x2eu.Nat25

open Transition

/-! ## Frames -/

/-- The octets of an address. -/
def ipAt (skb : Bytes) (i : ℕ) : UInt8 × UInt8 × UInt8 × UInt8 :=
  (skb.u8 i, skb.u8 (i + 1), skb.u8 (i + 2), skb.u8 (i + 3))

def saddr (skb : Bytes) : UInt8 × UInt8 × UInt8 × UInt8 := ipAt skb 26

def daddr (skb : Bytes) : UInt8 × UInt8 × UInt8 × UInt8 := ipAt skb 30

def vlanHdr (p : Bytes) : Option Bytes :=
  if p.be16 12 = 0x8100 then some ((p.drop 14).take 2) else none

def cutTag (p : Bytes) : Bytes :=
  if p.be16 12 = 0x8100 then p.take 12 ++ p.drop 16 else p

def pasteTag (hdr : Option Bytes) (skb : Bytes) : Bytes :=
  hdr.elim skb fun hdr => skb.take 12 ++ ([0x81, 0x00] ++ hdr ++ skb.drop 12)

def malformed (skb : Bytes) : Bool := 14 + skb.length ≤ transportOffset skb

structure Ipv4Frame where
  bytes : Bytes
  protocol : (cutTag bytes).be16 12 = 0x0800
  long : 34 ≤ (cutTag bytes).length

/-- What the transmit path looks at. -/
def Ipv4Frame.tx (f : Ipv4Frame) : TxFrame where
  group := (f.bytes.mac 0).isMcast
  vlan := (vlanHdr f.bytes).isSome
  ip := (cutTag f.bytes).be16 12 = 0x0800
  src := (cutTag f.bytes).mac 6
  srcIp := saddr (cutTag f.bytes)

/-- What the two functions read of the adapter, when a frame comes. -/
structure BrConfig where
  brPort : Bool
  /-- `br_mac`, set again by `netdev_br_init` if it was zero. -/
  brMac : MacAddr
  hwaddr : MacAddr
  dhcpBcstDisable : Bool

/-! ## The two functions -/

section Functions

variable (k : Kernel) (c : BrConfig) (jiffies : UInt64) (malloc : Option ℕ) (db : Db)

/-- The condition of the first branch of `rtw_br_client_tx`. -/
def Db.shortcut (f : TxFrame) : Bool :=
  !f.group && c.brPort && f.src ≠ c.brMac && !f.vlan && f.ip && db.scdbMac = f.src &&
    db.scdbEntry.isSome

/-- `nat25_db_handle` with `NAT25_INSERT`, of an IP packet. A malformed packet gives -1. -/
def insertIp (skb : Bytes) : Option (Db × Bool) :=
  if malformed skb then some (db, false)
  else if saddr skb = (0, 0, 0, 0) then some (db, true)
  else (db.networkInsert k jiffies malloc (skb.mac 6) (generateIpv4NetworkAddr (saddr skb))).map
    fun db => (db, true)

/-- `nat25_db_handle` with `NAT25_LOOKUP`, of an IP packet: the database, the packet and what is
returned. -/
def lookupIp (skb : Bytes) : Option (Db × Bytes × ℤ) :=
  if malformed skb then some (db, skb, -1)
  else (db.networkLookupAndReplace k jiffies (generateIpv4NetworkAddr (daddr skb)) skb).map
    fun (db, skb, found) =>
      if found then (db, skb, 0)
      -- L2 is unicast but L3 is broadcast, make L2 bacome broadcast
      else if (daddr skb).2.2.2 = 0xff then (db, skb.overwrite 0 MacAddr.bcast.toBytes, 0)
      -- forward unknow IP packet to upper TCP/IP
      else (db, skb.overwrite 0 c.brMac.toBytes, 0)

def translated (hdr : Option Bytes) (skb : Bytes) : Bytes :=
  pasteTag hdr (dhcpFlagBcast c.dhcpBcstDisable (skb.overwrite 6 c.hwaddr.toBytes))

/-- The last check of `rtw_br_client_tx`: the source is the adapter. -/
def checkedSa (p : Bytes) : Option Bytes := if p.mac 6 = c.hwaddr then some p else none

/-- What `rtw_br_client_tx` does with an insert: after a malformed packet the frame is let go as it
is. -/
def insertingTx (f : Ipv4Frame) : Option (Db × Option Bytes) :=
  (insertIp k jiffies malloc db (cutTag f.bytes)).map fun (db, inserted) =>
    (db, if inserted then checkedSa c (translated c (vlanHdr f.bytes) (cutTag f.bytes))
      else some (cutTag f.bytes))

/-- `rtw_br_client_tx`, with the shortcut or without: the database and the frame, if it is not
dropped. -/
def brClientTx (shortcut : Bool) (f : Ipv4Frame) : Option (Db × Option Bytes) :=
  if shortcut then
    (db.clientTx k jiffies c.brPort c.brMac f.tx).bind fun (db', doNat25) =>
      if db.shortcut c f.tx then
        some (db', checkedSa c (f.bytes.overwrite 6 c.hwaddr.toBytes))
      else if doNat25 then insertingTx k c jiffies malloc db' f
      else some (db', checkedSa c (translated c (vlanHdr f.bytes) (cutTag f.bytes)))
  else insertingTx k c jiffies malloc db f

/-- `nat25_handle_frame`, with the shortcut or without: the database, the frame and what is
returned. -/
def nat25HandleFrame (shortcut : Bool) (f : Ipv4Frame) : Option (Db × Bytes × ℤ) :=
  if (f.bytes.mac 0).isMcast then some (db, f.bytes, 0)
  else
    let skb := cutTag f.bytes
    (if shortcut && db.scdbIp = daddr skb then some (db, skb.overwrite 0 db.scdbMac.toBytes, 0)
      else lookupIp k c jiffies db skb).map
        fun (db, skb, retval) => (db, pasteTag (vlanHdr f.bytes) skb, retval)

end Functions

/-- A frame from a bridged client, with what `rtw_malloc` would give with the shortcut and without
it, or a frame from the air. -/
inductive BridgeOp
  | send (malloc : Bool → Option ℕ) (f : Ipv4Frame)
  | receive (f : Ipv4Frame)

/-- A frame, its time and the adapter then. -/
structure BridgeEvent where
  jiffies : UInt64
  config : BrConfig
  op : BridgeOp

/-- The database after a frame, and the frame that is transmitted or delivered. A received frame is
delivered whatever `nat25_handle_frame` returns. -/
def bridgeStep (k : Kernel) (shortcut : Bool) (db : Db) (e : BridgeEvent) :
    Option (Db × Option Bytes) :=
  match e.op with
  | .send malloc f => brClientTx k e.config e.jiffies (malloc shortcut) db shortcut f
  | .receive f =>
    (nat25HandleFrame k e.config e.jiffies db shortcut f).map fun (db, p, _) => (db, some p)

/-- The frames that are transmitted and delivered. -/
def bridgeRun (k : Kernel) (shortcut : Bool) : Db → List BridgeEvent → Option (List (Option Bytes))
  | _, [] => some []
  | db, e :: es =>
    (bridgeStep k shortcut db e).bind fun r => (bridgeRun k shortcut r.1 es).map (r.2 :: ·)

/-- The databases with the shortcut and without it. -/
def bothStep (k : Kernel) (s : Db × Db) (e : BridgeEvent) : Option (Db × Db) :=
  (bridgeStep k true s.1 e).bind fun r => (bridgeStep k false s.2 e).map fun r' => (r.1, r'.1)

/-! ## The condition -/

def NoneExpired (k : Kernel) (jiffies : UInt64) (db : Db) : Prop :=
  ∀ i ∈ db.live, hasExpired k jiffies (db.ageingTimer i) = false

def Db.SkipsInsert (db : Db) (f : TxFrame) : Prop :=
  if db.scdbMac = f.src then db.scdbEntry.isSome = true
  else ∃ i ∈ db.live, db.networkAddr i = generateIpv4NetworkAddr f.srcIp

def Db.Recorded (db : Db) (a : NetworkAddr) (mac : MacAddr) : Prop :=
  ∃ i ∈ db.live, db.networkAddr i = a ∧ db.macAddr i = mac

def Provided (k : Kernel) (s : Db × Db) (e : BridgeEvent) : Prop :=
  NoneExpired k e.jiffies s.1 ∧ NoneExpired k e.jiffies s.2 ∧
  match e.op with
  | .send malloc _ => (malloc true).any (· ∉ s.1.live) ∧ (malloc false).any (· ∉ s.2.live)
  | .receive _ => True

/-- The condition on a frame and on the databases before it. -/
def InStep (db : Db) (e : BridgeEvent) : Prop :=
  match e.op with
  | .send _ f =>
    (db.SkipsInsert f.tx → malformed (cutTag f.bytes) = false ∧
      (f.tx.srcIp = (0, 0, 0, 0) ∨
        db.Recorded (generateIpv4NetworkAddr f.tx.srcIp) f.tx.src)) ∧
    (db.shortcut e.config f.tx →
      e.config.dhcpBcstDisable = true ∨ isUnicastRequest f.bytes = false)
  | .receive f =>
    db.scdbIp = daddr (cutTag f.bytes) →
      malformed (cutTag f.bytes) = false ∧ db.scdbIp ≠ (0, 0, 0, 0)

section Decide

variable {k : Kernel} {db : Db} {s : Db × Db} {e : BridgeEvent}

instance NoneExpired.decidable {jiffies : UInt64} : Decidable (NoneExpired k jiffies db) :=
  inferInstanceAs (Decidable (∀ i ∈ db.live, hasExpired k jiffies (db.ageingTimer i) = false))

instance Db.SkipsInsert.decidable {f : TxFrame} : Decidable (db.SkipsInsert f) :=
  inferInstanceAs (Decidable (if db.scdbMac = f.src then db.scdbEntry.isSome = true
    else ∃ i ∈ db.live, db.networkAddr i = generateIpv4NetworkAddr f.srcIp))

instance Db.Recorded.decidable {a : NetworkAddr} {mac : MacAddr} :
    Decidable (db.Recorded a mac) :=
  inferInstanceAs (Decidable (∃ i ∈ db.live, db.networkAddr i = a ∧ db.macAddr i = mac))

instance Provided.decidable : Decidable (Provided k s e) := by
  unfold Provided
  cases e.op <;> infer_instance

instance InStep.decidable : Decidable (InStep db e) := by
  unfold InStep
  cases e.op <;> infer_instance

end Decide

/-! ## The databases of the two runs -/

/-- Every address of which there was an insert has an entry. -/
def Complete (db : Db) (latest : NetworkAddr → Option MacAddr) : Prop :=
  ∀ a mac, latest a = some mac → ∃ i ∈ db.live, db.networkAddr i = a

structure Full (k : Kernel) (db : Db) (latest : NetworkAddr → Option MacAddr) : Prop where
  sound : Sound k db latest
  complete : Complete db latest

/-- The databases with the shortcut and without it have the same addresses, and the cached address
is one of them. -/
structure Alike (k : Kernel) (a b : Db) (latest : NetworkAddr → Option MacAddr) : Prop where
  left : Full k a latest
  right : Full k b latest
  cached : a.scdbIp ≠ (0, 0, 0, 0) → latest (generateIpv4NetworkAddr a.scdbIp) = some a.scdbMac

section Steps

variable {k : Kernel} {a b db db' : Db} {latest : NetworkAddr → Option MacAddr} {c : BrConfig}
  {jiffies : UInt64} {malloc : Option ℕ} {skb : Bytes} {f : Ipv4Frame}

def SameCache (db' db : Db) : Prop := db'.scdbIp = db.scdbIp ∧ db'.scdbMac = db.scdbMac

theorem Full.congr (h : Full k db latest) (hnethash : db'.nethash = db.nethash)
    (hlive : db'.live = db.live) (haddr : db'.networkAddr = db.networkAddr)
    (hmac : db'.macAddr = db.macAddr) (hscdb : ∀ i, db'.scdbEntry = some i → i ∈ db.live) :
    Full k db' latest := by
  refine ⟨h.sound.congr hnethash hlive haddr hmac hscdb, ?_⟩
  unfold Complete
  rw [hlive, haddr]
  exact h.complete

/-- **An insert with memory for an entry.** -/
theorem Full.networkInsert (h : Full k db latest) (jiffies : UInt64)
    (hmalloc : malloc.any (· ∉ db.live)) (mac : MacAddr) (addr : NetworkAddr) :
    ∃ db', db.networkInsert k jiffies malloc mac addr = some db' ∧
      Full k db' (insertLatest latest mac addr) ∧ SameCache db' db := by
  obtain ⟨db', hdb, hs⟩ := h.sound.networkInsert jiffies malloc mac addr
  refine ⟨db', hdb, ?_⟩
  obtain ⟨r, hfind, hsome, -⟩ := h.sound.find addr
  unfold Db.networkInsert at hdb
  rw [hfind, Option.map_some] at hdb
  cases r with
  | some i =>
    obtain ⟨hi, haddr⟩ := hsome i rfl
    obtain rfl := Option.some.inj hdb
    refine ⟨⟨hs, fun addr' mac' hlatest => ?_⟩, rfl, rfl⟩
    by_cases heq : addr' = addr
    · exact ⟨i, hi, haddr.trans heq.symm⟩
    · rw [insertLatest, Function.update_of_ne heq] at hlatest
      exact h.complete addr' mac' hlatest
  | none =>
    obtain ⟨i, hi, hfresh⟩ := (Option.any_eq_true _ _).mp hmalloc
    have hfilter : malloc.filter (· ∉ db.live) = some i := by
      rw [hi, Option.filter_some, if_pos hfresh]
    have hnew : i ∉ db.live := of_decide_eq_true hfresh
    dsimp only at hdb
    rw [hfilter] at hdb
    obtain rfl := Option.some.inj hdb
    refine ⟨⟨hs, fun addr' mac' hlatest => ?_⟩, rfl, rfl⟩
    by_cases heq : addr' = addr
    · exact ⟨i, Finset.mem_insert_self i _, (Function.update_self ..).trans heq.symm⟩
    · rw [insertLatest, Function.update_of_ne heq] at hlatest
      obtain ⟨j, hj, haddr⟩ := h.complete addr' mac' hlatest
      have hji : j ≠ i := fun hji => hnew (hji ▸ hj)
      exact ⟨j, Finset.mem_insert_of_mem hj, (Function.update_of_ne hji ..).trans haddr⟩

def insertedLatest (latest : NetworkAddr → Option MacAddr) (skb : Bytes) :
    NetworkAddr → Option MacAddr :=
  if malformed skb || saddr skb = (0, 0, 0, 0) then latest
  else insertLatest latest (skb.mac 6) (generateIpv4NetworkAddr (saddr skb))

/-- **What `NAT25_INSERT` does with an IP packet.** -/
theorem Full.insertIp (h : Full k db latest) (jiffies : UInt64)
    (hmalloc : malloc.any (· ∉ db.live)) (skb : Bytes) :
    ∃ db', Nat25.insertIp k jiffies malloc db skb = some (db', !malformed skb) ∧
      Full k db' (insertedLatest latest skb) ∧ SameCache db' db := by
  unfold Nat25.insertIp insertedLatest
  cases hbad : malformed skb with
  | true => exact ⟨db, rfl, h, rfl, rfl⟩
  | false =>
    by_cases hzero : saddr skb = (0, 0, 0, 0)
    · exact ⟨db, by simp [hzero], by simpa [hzero] using h, rfl, rfl⟩
    · obtain ⟨db', hdb, hfull, hsame⟩ :=
        h.networkInsert jiffies hmalloc (skb.mac 6) (generateIpv4NetworkAddr (saddr skb))
      exact ⟨db', by simp [hzero, hdb], by simpa [hzero] using hfull, hsame⟩

/-- What a lookup makes of an IP packet. -/
def lookedUp (c : BrConfig) (latest : NetworkAddr → Option MacAddr) (skb : Bytes) : Bytes × ℤ :=
  if malformed skb then (skb, -1)
  else match latest (generateIpv4NetworkAddr (daddr skb)) with
    | some mac => (skb.overwrite 0 mac.toBytes, 0)
    | none =>
      if (daddr skb).2.2.2 = 0xff then (skb.overwrite 0 MacAddr.bcast.toBytes, 0)
      else (skb.overwrite 0 c.brMac.toBytes, 0)

/-- **What `NAT25_LOOKUP` does with an IP packet**, if nothing has expired. -/
theorem Full.lookupIp (h : Full k db latest) (c : BrConfig) (hfresh : NoneExpired k jiffies db)
    (skb : Bytes) : ∃ db', Nat25.lookupIp k c jiffies db skb = some (db', lookedUp c latest skb) ∧
      Full k db' latest ∧ SameCache db' db := by
  unfold Nat25.lookupIp lookedUp
  cases malformed skb with
  | true => exact ⟨db, rfl, h, rfl, rfl⟩
  | false =>
    obtain ⟨r, hfind, hsome, hnone⟩ := h.sound.find (generateIpv4NetworkAddr (daddr skb))
    unfold Db.networkLookupAndReplace
    rw [hfind, Option.map_some]
    cases r with
    | some i =>
      obtain ⟨hi, haddr⟩ := hsome i rfl
      have hlatest : latest (generateIpv4NetworkAddr (daddr skb)) = some (db.macAddr i) :=
        haddr ▸ h.sound.latest i hi
      dsimp only
      rw [hfresh i hi, hlatest]
      exact ⟨_, rfl, h.congr rfl rfl rfl rfl h.sound.scdb, rfl, rfl⟩
    | none =>
      have hlatest : latest (generateIpv4NetworkAddr (daddr skb)) = none := by
        cases hl : latest (generateIpv4NetworkAddr (daddr skb)) with
        | none => rfl
        | some mac =>
          obtain ⟨i, hi, haddr⟩ := h.complete _ mac hl
          exact absurd haddr (hnone rfl i hi)
      rw [hlatest]
      refine ⟨db, ?_, h, rfl, rfl⟩
      by_cases hbcast : (daddr skb).2.2.2 = 0xff
      · simp [hbcast]
      · simp [hbcast]

/-! ## The transmit path -/

theorem Db.skipsInsert_of_shortcut {f : TxFrame} (h : db.shortcut c f = true) :
    db.SkipsInsert f := by
  simp only [Db.shortcut, Bool.and_eq_true, decide_eq_true_eq] at h
  unfold Db.SkipsInsert
  rw [if_pos h.1.2]
  exact h.2

theorem Full.touch (h : Full k db latest) (jiffies : UInt64) {i : ℕ} (hi : i ∈ db.live) :
    ∃ db', db.touch jiffies i = some db' ∧ Full k db' latest ∧ db'.live = db.live ∧
      SameCache db' db :=
  ⟨_, if_pos hi, h.congr rfl rfl rfl rfl h.sound.scdb, rfl, rfl, rfl⟩

/-- What the transmit path leaves of the cached client: as it was or the sender, if the insert is
left out, and else as it was, of an address that has an entry, or nothing. -/
def CacheAfter (db db' : Db) (f : TxFrame) : Prop :=
  (db.SkipsInsert f → SameCache db' db ∨ db'.scdbIp = f.srcIp ∧ db'.scdbMac = f.src) ∧
  (¬ db.SkipsInsert f → SameCache db' db ∧
    (∀ i ∈ db.live, db.networkAddr i ≠ generateIpv4NetworkAddr f.srcIp) ∨
      db'.scdbIp = (0, 0, 0, 0))

/-- **What the transmit path does before `nat25_db_handle`** with an IP packet. -/
theorem Full.clientTx (h : Full k db latest) (jiffies : UInt64) (c : BrConfig) {f : TxFrame}
    (hip : f.ip = true) : ∃ db' doNat25, db.clientTx k jiffies c.brPort c.brMac f =
        some (db', doNat25) ∧ Full k db' latest ∧ db'.live = db.live ∧
      (doNat25 = false ↔ db.SkipsInsert f) ∧ CacheAfter db db' f := by
  unfold Db.clientTx CacheAfter Db.SkipsInsert
  by_cases hmac : db.scdbMac = f.src
  · cases hentry : db.scdbEntry with
    | some i =>
      obtain ⟨db', htouch, hfull, hlive, hsame⟩ := h.touch jiffies (h.sound.scdb i hentry)
      refine ⟨db', false, ?_, hfull, hlive, ?_, ?_⟩
      · simp [hip, hmac, htouch]
      · simp [hmac]
      · simp [hmac, hsame]
    | none =>
      refine ⟨{ db with scdbMac := .zero, scdbIp := (0, 0, 0, 0) }, true, ?_, ?_, rfl, ?_, ?_⟩
      · simp [hip, hmac, hentry]
      · exact h.congr rfl rfl rfl rfl h.sound.scdb
      · simp [hmac]
      · simp [hmac]
  · obtain ⟨r, hfind, hsome, hnone⟩ := h.sound.find (generateIpv4NetworkAddr f.srcIp)
    unfold Db.adopt
    rw [hfind, Option.bind_some]
    cases r with
    | some i =>
      obtain ⟨hi, haddr⟩ := hsome i rfl
      have hfull : Full k { db with scdbEntry := some i, scdbMac := f.src, scdbIp := f.srcIp }
          latest := by
        refine h.congr rfl rfl rfl rfl fun j hj => ?_
        cases hj
        exact hi
      obtain ⟨db', htouch, hfull', hlive, hsame⟩ := hfull.touch jiffies hi
      refine ⟨db', false, ?_, hfull', hlive, ?_, ?_⟩
      · simp [hip, hmac, htouch]
      · simpa [hmac] using ⟨i, hi, haddr⟩
      · rw [if_neg hmac]
        exact ⟨fun _ => .inr hsame, fun hnot => absurd ⟨i, hi, haddr⟩ hnot⟩
    | none =>
      refine ⟨{ db with scdbEntry := none }, true, ?_, ?_, rfl, ?_, ?_⟩
      · simp [hip, hmac]
      · exact h.congr rfl rfl rfl rfl fun i hi => nomatch hi
      · simpa [hmac] using hnone rfl
      · rw [if_neg hmac]
        refine ⟨?_, fun _ => .inl ⟨⟨rfl, rfl⟩, hnone rfl⟩⟩
        rintro ⟨i, hi, haddr⟩
        exact absurd haddr (hnone rfl i hi)

/-- A frame that is recognised keeps its headers under a new source. -/
theorem isUnicastRequest_overwrite (p : Bytes) (hlong : 12 ≤ p.length) (mac : MacAddr) :
    isUnicastRequest (p.overwrite 6 mac.toBytes) = isUnicastRequest p := by
  have hu8 : ∀ i, 12 ≤ i → (p.overwrite 6 mac.toBytes).u8 i = p.u8 i := by
    intro i hi
    have hhead : (p.take 6 ++ mac.toBytes).length = 12 := by
      rw [List.length_append, List.length_take, min_eq_left (by omega)]
      rfl
    rw [Bytes.overwrite, Bytes.u8, Bytes.u8, List.getD_append_right _ _ _ _ (by omega), hhead]
    show (p.drop 12).getD (i - 12) 0 = p.getD i 0
    rw [List.getD_eq_getElem?_getD, List.getD_eq_getElem?_getD, List.getElem?_drop,
      Nat.add_sub_cancel' hi]
  have hoff : transportOffset (p.overwrite 6 mac.toBytes) = transportOffset p := by
    rw [transportOffset, transportOffset, hu8 14 (by omega)]
  have hle : 14 ≤ transportOffset p := Nat.le_add_right ..
  have hbe : ∀ i, 12 ≤ i → (p.overwrite 6 mac.toBytes).be16 i = p.be16 i := by
    intro i hi
    rw [Bytes.be16, Bytes.be16, hu8 i hi, hu8 (i + 1) (by omega)]
  unfold isUnicastRequest be32
  dsimp only
  rw [hoff, hbe 12 le_rfl, hu8 23 (by omega), hbe _ (by omega), hbe _ (by omega), hbe _ (by omega),
    hbe _ (by omega), hbe _ (by omega)]

theorem untagged_of_shortcut (h : db.shortcut c f.tx = true) :
    vlanHdr f.bytes = none ∧ cutTag f.bytes = f.bytes := by
  simp only [Db.shortcut, Bool.and_eq_true, Bool.not_eq_true'] at h
  have hvlan : (vlanHdr f.bytes).isSome = false := h.1.1.1.2
  unfold vlanHdr cutTag at *
  by_cases htag : f.bytes.be16 12 = 0x8100
  · simp [htag] at hvlan
  · exact ⟨if_neg htag, if_neg htag⟩

/-- What goes out without the shortcut. -/
def fullOutput (c : BrConfig) (f : Ipv4Frame) : Option Bytes :=
  if malformed (cutTag f.bytes) then some (cutTag f.bytes)
  else checkedSa c (translated c (vlanHdr f.bytes) (cutTag f.bytes))

/-- **A frame without the shortcut.** -/
theorem Full.insertingTx (h : Full k db latest) (c : BrConfig) (jiffies : UInt64)
    (hmalloc : malloc.any (· ∉ db.live)) (f : Ipv4Frame) :
    ∃ db', Nat25.insertingTx k c jiffies malloc db f = some (db', fullOutput c f) ∧
      Full k db' (insertedLatest latest (cutTag f.bytes)) ∧ SameCache db' db := by
  obtain ⟨db', hdb, hfull, hsame⟩ := h.insertIp jiffies hmalloc (cutTag f.bytes)
  refine ⟨db', ?_, hfull, hsame⟩
  unfold Nat25.insertingTx fullOutput
  rw [hdb, Option.map_some]
  cases malformed (cutTag f.bytes) <;> rfl

theorem translated_of_shortcut (h : db.shortcut c f.tx = true)
    (hdhcp : c.dhcpBcstDisable = true ∨ isUnicastRequest f.bytes = false) :
    translated c (vlanHdr f.bytes) (cutTag f.bytes) = f.bytes.overwrite 6 c.hwaddr.toBytes := by
  obtain ⟨hhdr, hcut⟩ := untagged_of_shortcut h
  have hlong := f.long
  rw [hcut] at hlong
  have hsame : (c.dhcpBcstDisable ||
      !isUnicastRequest (f.bytes.overwrite 6 c.hwaddr.toBytes)) = true := by
    rw [isUnicastRequest_overwrite f.bytes (by omega) c.hwaddr]
    rcases hdhcp with hdhcp | hdhcp <;> simp [hdhcp]
  unfold translated dhcpFlagBcast
  rw [hhdr, hcut, if_pos hsame]
  rfl

/-! ## One frame -/

/-- **A frame of a client goes out the same**, and the databases stay alike. -/
theorem Alike.send (h : Alike k a b latest) {mallocs : Bool → Option ℕ}
    (hp : Provided k (a, b) ⟨jiffies, c, .send mallocs f⟩)
    (hok : InStep a ⟨jiffies, c, .send mallocs f⟩) : ∃ a' b' out latest',
      brClientTx k c jiffies (mallocs true) a true f = some (a', out) ∧
      brClientTx k c jiffies (mallocs false) b false f = some (b', out) ∧
      Alike k a' b' latest' := by
  obtain ⟨-, -, hmallocA, hmallocB⟩ := hp
  obtain ⟨hskip, hdhcp⟩ := hok
  have hip : f.tx.ip = true := decide_eq_true f.protocol
  obtain ⟨b', hb, hfullB, -⟩ := h.right.insertingTx c jiffies hmallocB f
  obtain ⟨a', doNat25, ha, hfullA, hlive, hdo, hcache⟩ := h.left.clientTx jiffies c hip
  obtain ⟨hcacheSkip, hcacheNot⟩ := hcache
  by_cases hskips : a.SkipsInsert f.tx
  · -- the insert that is left out would have changed nothing
    obtain ⟨hgood, hknown⟩ := hskip hskips
    have hrecorded : f.tx.srcIp ≠ (0, 0, 0, 0) →
        latest (generateIpv4NetworkAddr f.tx.srcIp) = some f.tx.src := by
      intro hne
      obtain ⟨i, hi, haddr, hmac⟩ := hknown.resolve_left hne
      rw [← haddr, ← hmac]
      exact h.left.sound.latest i hi
    have hlatest : insertedLatest latest (cutTag f.bytes) = latest := by
      unfold insertedLatest
      rw [hgood, Bool.false_or]
      by_cases hzero : saddr (cutTag f.bytes) = (0, 0, 0, 0)
      · rw [if_pos (decide_eq_true hzero)]
      · have hlatest : latest (generateIpv4NetworkAddr (saddr (cutTag f.bytes))) =
            some ((cutTag f.bytes).mac 6) := hrecorded hzero
        rw [if_neg (by simpa using hzero), insertLatest, ← hlatest]
        exact Function.update_eq_self ..
    have hout : fullOutput c f = checkedSa c (translated c (vlanHdr f.bytes) (cutTag f.bytes)) := by
      rw [fullOutput, hgood, if_neg Bool.false_ne_true]
    refine ⟨a', b', fullOutput c f, latest, ?_, by rw [brClientTx, if_neg Bool.false_ne_true, hb],
      hfullA, hlatest ▸ hfullB, fun hne => ?_⟩
    · rw [brClientTx, if_pos rfl, ha, Option.bind_some, hout]
      dsimp only
      by_cases hshort : a.shortcut c f.tx = true
      · rw [if_pos hshort, translated_of_shortcut hshort (hdhcp hshort)]
      · rw [if_neg hshort, hdo.mpr hskips, if_neg Bool.false_ne_true]
    · rcases hcacheSkip hskips with ⟨hip', hmac'⟩ | ⟨hip', hmac'⟩
      · rw [hip'] at hne
        rw [hip', hmac']
        exact h.cached hne
      · rw [hip'] at hne
        rw [hip', hmac']
        exact hrecorded hne
  · have hshort : a.shortcut c f.tx ≠ true := fun hshort =>
      hskips (Db.skipsInsert_of_shortcut hshort)
    have hdo' : doNat25 = true := by
      cases doNat25 with
      | true => rfl
      | false => exact absurd (hdo.mp rfl) hskips
    have hmallocA' : (mallocs true).any (· ∉ a'.live) := by
      rw [hlive]
      exact hmallocA
    obtain ⟨a'', ha'', hfullA', hsame, hsameMac⟩ := hfullA.insertingTx c jiffies hmallocA' f
    refine ⟨a'', b', fullOutput c f, insertedLatest latest (cutTag f.bytes), ?_,
      by rw [brClientTx, if_neg Bool.false_ne_true, hb], hfullA', hfullB, fun hne => ?_⟩
    · rw [brClientTx, if_pos rfl, ha, Option.bind_some]
      dsimp only
      rw [if_neg hshort, if_pos hdo', ha'']
    · rw [hsame] at hne
      rw [hsame, hsameMac]
      rcases hcacheNot hskips with ⟨⟨hip', hmac'⟩, hnone⟩ | hzero
      · rw [hip'] at hne
        rw [hip', hmac']
        have hcached := h.cached hne
        -- the cached address has an entry, so it is not the one that is inserted
        have hother : generateIpv4NetworkAddr a.scdbIp ≠
            generateIpv4NetworkAddr (saddr (cutTag f.bytes)) := by
          intro heq
          obtain ⟨i, hi, haddr⟩ := h.left.complete _ _ hcached
          exact hnone i hi (haddr.trans heq)
        unfold insertedLatest
        split
        case isTrue => exact hcached
        case isFalse =>
          rw [insertLatest, Function.update_of_ne hother]
          exact hcached
      · exact absurd hzero hne

/-- **A received frame is delivered the same**, and the databases stay alike. -/
theorem Alike.receive (h : Alike k a b latest)
    (hp : Provided k (a, b) ⟨jiffies, c, .receive f⟩)
    (hcached : InStep a ⟨jiffies, c, .receive f⟩) : ∃ a' b' out,
      nat25HandleFrame k c jiffies a true f = some (a', out) ∧
      nat25HandleFrame k c jiffies b false f = some (b', out) ∧ Alike k a' b' latest := by
  obtain ⟨hfreshA, hfreshB, -⟩ := hp
  by_cases hgroup : (f.bytes.mac 0).isMcast = true
  · exact ⟨a, b, _, if_pos hgroup, if_pos hgroup, h⟩
  · obtain ⟨b', hb, hfullB, -⟩ := h.right.lookupIp c hfreshB (cutTag f.bytes)
    have hright : nat25HandleFrame k c jiffies b false f =
        some (b', pasteTag (vlanHdr f.bytes) (lookedUp c latest (cutTag f.bytes)).1,
          (lookedUp c latest (cutTag f.bytes)).2) := by
      unfold nat25HandleFrame
      dsimp only
      rw [if_neg hgroup, Bool.false_and, if_neg Bool.false_ne_true, hb]
      rfl
    by_cases hhit : a.scdbIp = daddr (cutTag f.bytes)
    · obtain ⟨hgood, hne⟩ := hcached hhit
      have hlooked : lookedUp c latest (cutTag f.bytes) =
          ((cutTag f.bytes).overwrite 0 a.scdbMac.toBytes, 0) := by
        have hlatest := h.cached hne
        rw [hhit] at hlatest
        unfold lookedUp
        rw [hgood, if_neg Bool.false_ne_true, hlatest]
      refine ⟨a, b', _, ?_, hright, h.left, hfullB, h.cached⟩
      unfold nat25HandleFrame
      dsimp only
      rw [if_neg hgroup, if_pos (by simpa using hhit), hlooked]
      rfl
    · obtain ⟨a', ha, hfullA, hip, hmac⟩ := h.left.lookupIp c hfreshA (cutTag f.bytes)
      refine ⟨a', b', _, ?_, hright, hfullA, hfullB, by rw [hip, hmac]; exact h.cached⟩
      unfold nat25HandleFrame
      dsimp only
      rw [if_neg hgroup, if_neg (by simpa using hhit), ha]
      rfl

theorem bridgeStep_receive {shortcut : Bool} {out : Bytes × ℤ}
    (h : nat25HandleFrame k c jiffies db shortcut f = some (db', out)) :
    bridgeStep k shortcut db ⟨jiffies, c, .receive f⟩ = some (db', some out.1) := by
  unfold bridgeStep
  dsimp only
  rw [h]
  rfl

/-- **One frame in step** gives the same bytes and leaves the databases alike. -/
theorem Alike.step {e : BridgeEvent} (h : Alike k a b latest) (hp : Provided k (a, b) e)
    (hok : InStep a e) :
    ∃ a' b' out latest', bridgeStep k true a e = some (a', out) ∧
      bridgeStep k false b e = some (b', out) ∧ Alike k a' b' latest' := by
  obtain ⟨jiffies, c, op⟩ := e
  cases op with
  | send mallocs f => exact h.send hp hok
  | receive f =>
    obtain ⟨a', b', out, ha, hb, halike⟩ := h.receive hp hok
    exact ⟨a', b', some out.1, latest, bridgeStep_receive ha, bridgeStep_receive hb, halike⟩

theorem Alike.run {es : List BridgeEvent} (h : Alike k a b latest)
    (hok : Meets (bothStep k) (fun s e => Provided k s e ∧ InStep s.1 e) (a, b) es) :
    ∃ outs, bridgeRun k true a es = some outs ∧ bridgeRun k false b es = some outs := by
  induction es generalizing a b latest with
  | nil => exact ⟨[], rfl, rfl⟩
  | cons e es ih =>
    obtain ⟨a', b', out, latest', ha, hb, halike⟩ := h.step hok.1.1 hok.1.2
    have hboth : bothStep k (a, b) e = some (a', b') := by
      unfold bothStep
      rw [ha, Option.bind_some, hb, Option.map_some]
    obtain ⟨outs, houtsA, houtsB⟩ := ih halike (hok.2 _ hboth)
    refine ⟨out :: outs, ?_, ?_⟩
    · rw [bridgeRun, ha, Option.bind_some, houtsA, Option.map_some]
    · rw [bridgeRun, hb, Option.bind_some, houtsB, Option.map_some]

end Steps

theorem alike_initial (k : Kernel) : Alike k .initial .initial fun _ => none := by
  have hfull : Full k .initial fun _ => none := ⟨sound_initial k, fun a mac h => nomatch h⟩
  exact ⟨hfull, hfull, fun hne => absurd rfl hne⟩

/-- **The shortcut changes nothing** along a run whose frames are all in step: the same bytes are
transmitted and delivered. -/
theorem sameBytes_of_meets (k : Kernel) (es : List BridgeEvent)
    (h : Meets (bothStep k) (fun s e => Provided k s e ∧ InStep s.1 e) (.initial, .initial) es) :
    ∃ outs, bridgeRun k true .initial es = some outs ∧ bridgeRun k false .initial es = some outs :=
  (alike_initial k).run h

def bareFrame (dst src : MacAddr) (x y : UInt8) : Ipv4Frame where
  bytes := dst.toBytes ++ (src.toBytes ++ [0x08, 0x00, 0x45, 0, 0, 20, 0, 0, 0, 0, 64, 1, 0, 0,
    10, 0, 0, x, 10, 0, 0, y])
  protocol := rfl
  long := Nat.le_of_eq rfl

def bridged : BrConfig where
  brPort := true
  brMac := ⟨0x02, 0, 0, 0, 0, 0x04⟩
  hwaddr := ⟨0x02, 0, 0, 0, 0, 0x03⟩
  dhcpBcstDisable := false

def sends (x : UInt8) (block : ℕ) : BridgeEvent :=
  ⟨0, bridged, .send (fun _ => some block)
    (bareFrame ⟨0x02, 0, 0, 0, 0, 0x01⟩ ⟨0x02, 0, 0, 0, 0, 0x02⟩ x 1)⟩

def answers (x : UInt8) : BridgeEvent :=
  ⟨0, bridged, .receive (bareFrame bridged.hwaddr ⟨0x02, 0, 0, 0, 0, 0x01⟩ 1 x)⟩

/-- A client with one address. -/
theorem sameBytes_oneAddress :
    ∃ outs, bridgeRun ⟨false, 1000⟩ true .initial [sends 5 0, sends 5 1, answers 5] = some outs ∧
      bridgeRun ⟨false, 1000⟩ false .initial [sends 5 0, sends 5 1, answers 5] = some outs :=
  sameBytes_of_meets ⟨false, 1000⟩ [sends 5 0, sends 5 1, answers 5] (by decide +kernel)

/-- **A client with two addresses**: no entry is made for the second, and an answer to it goes to
the bridge. -/
theorem not_sameBytes :
    Meets (bothStep ⟨false, 1000⟩) (Provided ⟨false, 1000⟩) (.initial, .initial)
        [sends 5 0, sends 5 1, sends 6 2, answers 6] ∧
      ¬ ∃ outs,
        bridgeRun ⟨false, 1000⟩ true .initial [sends 5 0, sends 5 1, sends 6 2, answers 6] =
          some outs ∧
        bridgeRun ⟨false, 1000⟩ false .initial [sends 5 0, sends 5 1, sends 6 2, answers 6] =
          some outs := by
  refine ⟨by decide +kernel, ?_⟩
  rintro ⟨outs, hshort, hfull⟩
  have hne : bridgeRun ⟨false, 1000⟩ true .initial [sends 5 0, sends 5 1, sends 6 2, answers 6] ≠
      bridgeRun ⟨false, 1000⟩ false .initial [sends 5 0, sends 5 1, sends 6 2, answers 6] := by
    decide +kernel
  exact hne (hshort.trans hfull.symm)

end Rtl88x2eu.Nat25
