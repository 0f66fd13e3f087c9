import Mathlib.Data.Finset.Card
import Mathlib.Data.List.FinRange
import Rtl88x2eu.Lib.HashChains
import Rtl88x2eu.Recv.Attrib

/-!
# The NAT2.5 database

`rtw_br_ext.c` keeps the MAC addresses of the bridged clients under their network addresses, in
hashed chains with back-pointers; `rtw_br_client_tx` keeps a pointer to the entry of one client
besides. An entry that has expired is only removed when its use count has come down to zero.

An operation gives `none` if a loop does not end in as many steps as there are entries, if an entry
that no pointer points at is to be unlinked, or if a freed entry is written.

## Main definitions

* `networkHash`, `Db`
* `Db.networkInsert`, `Db.networkLookupAndReplace`, `Db.expire`, `Db.cleanup`, `Db.clientTx`: the
  operations
* `Sound`

## Main results

* `sound_step`: every operation succeeds and keeps what holds
* `nat25_db_sound`: every run does, and what a lookup writes then
-/

namespace Rtl88x2eu.Nat25

open HashChains

def maxNetworkAddrLen : ℕ := 17

def nat25HashSize : ℕ := 16

def nat25AgeingTime : UInt64 := 300

/-- A network address, as the database records it. -/
structure NetworkAddr where
  bytes : Bytes
  length : bytes.length = maxNetworkAddrLen
  deriving DecidableEq

def generateIpv4NetworkAddr (ip : UInt8 × UInt8 × UInt8 × UInt8) : NetworkAddr where
  bytes := [1, 0, 0, 0, 0, 0, 0, ip.1, ip.2.1, ip.2.2.1, ip.2.2.2, 0, 0, 0, 0, 0, 0]
  length := rfl

def xorOf (a : NetworkAddr) (i n : ℕ) : UInt8 :=
  (List.range' i n).foldl (fun x i => x ^^^ a.bytes.u8 i) 0

def hashValue (ipx : Bool) (a : NetworkAddr) : UInt8 :=
  if a.bytes.u8 0 = 1 then xorOf a 7 4
  else if ipx && a.bytes.u8 0 = 3 then xorOf a 1 10
  else if ipx && a.bytes.u8 0 = 4 then xorOf a 1 3
  else if a.bytes.u8 0 = 5 then xorOf a 0 9
  else if a.bytes.u8 0 = 2 then xorOf a 1 16
  else xorOf a 0 maxNetworkAddrLen

/-- The bucket of a network address. -/
def networkHash (ipx : Bool) (a : NetworkAddr) : Fin nat25HashSize :=
  ⟨(hashValue ipx a).toNat % 16, Nat.mod_lt _ (by decide)⟩

structure Kernel where
  ipx : Bool
  hz : UInt64

/-- `__nat25_has_expired`, of `jiffies` and the ageing timer: the difference to the timeout is not
negative. -/
def hasExpired (k : Kernel) (jiffies ageingTimer : UInt64) : Bool :=
  (jiffies - nat25AgeingTime * k.hz - ageingTimer).toNat < 2 ^ 63

/-- The database, and the entry of one client that the transmit path keeps. -/
structure Db where
  nethash : Table (Fin nat25HashSize)
  /-- The entries that are allocated. -/
  live : Finset ℕ
  networkAddr : ℕ → NetworkAddr
  macAddr : ℕ → MacAddr
  useCount : ℕ → UInt32
  ageingTimer : ℕ → UInt64
  scdbEntry : Option ℕ
  scdbMac : MacAddr
  scdbIp : UInt8 × UInt8 × UInt8 × UInt8

/-- What of a frame of a client the transmit path looks at. -/
structure TxFrame where
  group : Bool
  vlan : Bool
  /-- The protocol, behind a VLAN tag, is IP. -/
  ip : Bool
  src : MacAddr
  srcIp : UInt8 × UInt8 × UInt8 × UInt8

namespace Db

variable (k : Kernel) (db : Db)

/-- The walk along a chain to the entry of an address. -/
def find (a : NetworkAddr) : Option (Option ℕ) :=
  db.nethash.find (fun i => db.networkAddr i = a) db.live.card
    (db.nethash.head (networkHash k.ipx a))

/-- `__nat25_db_network_insert`; `rtw_malloc` gives a block that is not in use, or none. -/
def networkInsert (jiffies : UInt64) (malloc : Option ℕ) (mac : MacAddr) (a : NetworkAddr) :
    Option Db :=
  (db.find k a).map fun
    | some i =>
      { db with
        macAddr := Function.update db.macAddr i mac
        ageingTimer := Function.update db.ageingTimer i jiffies }
    | none =>
      match malloc.filter (· ∉ db.live) with
      | none => db
      | some i =>
        { db with
          live := insert i db.live
          networkAddr := Function.update db.networkAddr i a
          macAddr := Function.update db.macAddr i mac
          useCount := Function.update db.useCount i 1
          ageingTimer := Function.update db.ageingTimer i jiffies
          nethash := db.nethash.link i (networkHash k.ipx a) }

/-- `__nat25_db_network_lookup_and_replace`: the database and the frame, and whether an entry was
found. -/
def networkLookupAndReplace (jiffies : UInt64) (a : NetworkAddr) (frame : Bytes) :
    Option (Db × Bytes × Bool) :=
  (db.find k a).map fun
    | some i =>
      if hasExpired k jiffies (db.ageingTimer i) then (db, frame, true)
      else
        ({ db with useCount := Function.update db.useCount i (db.useCount i + 1) },
          frame.overwrite 0 (db.macAddr i).toBytes, true)
    | none => (db, frame, false)

def remove (i : ℕ) : Option Db :=
  let db :=
    if db.scdbEntry = some i then
      { db with scdbMac := .zero, scdbIp := (0, 0, 0, 0), scdbEntry := none }
    else db
  (db.nethash.unlink i).map fun nethash => { db with nethash, live := db.live.erase i }

def expireEntry (jiffies : UInt64) (i : ℕ) : Option Db :=
  if hasExpired k jiffies (db.ageingTimer i) then
    let db := { db with useCount := Function.update db.useCount i (db.useCount i - 1) }
    if db.useCount i = 0 then db.remove i else some db
  else some db

/-- A loop over a chain: the next entry is taken before something is done with one. -/
def walk (visit : Db → ℕ → Option Db) : ℕ → Option ℕ → Db → Option Db
  | _, none, db => some db
  | 0, some _, _ => none
  | n + 1, some i, db => (visit db i).bind (walk visit n (db.nethash.next i))

/-- A loop over the buckets. -/
def walkAll (visit : Db → ℕ → Option Db) : Option Db :=
  (List.finRange nat25HashSize).foldlM
    (fun db h => walk visit db.live.card (db.nethash.head h) db) db

def expire (jiffies : UInt64) : Option Db := db.walkAll fun db i => db.expireEntry k jiffies i

def cleanup : Option Db := db.walkAll remove

def touch (jiffies : UInt64) (i : ℕ) : Option Db :=
  if i ∈ db.live then some { db with ageingTimer := Function.update db.ageingTimer i jiffies }
  else none

/-- The entry of another client is looked for, by `scdb_findEntry`. -/
def adopt (jiffies : UInt64) (f : TxFrame) : Option (Db × Bool) :=
  (db.find k (generateIpv4NetworkAddr f.srcIp)).bind fun
    | none => some ({ db with scdbEntry := none }, true)
    | some i =>
      (touch { db with scdbEntry := some i, scdbMac := f.src, scdbIp := f.srcIp } jiffies i).map
        fun db => (db, false)

/-- `rtw_br_client_tx`, up to the call of `nat25_db_handle`: the database, and whether the frame is
given to that function. -/
def clientTx (jiffies : UInt64) (brPort : Bool) (brMac : MacAddr) (f : TxFrame) :
    Option (Db × Bool) :=
  if !f.group && brPort && f.src ≠ brMac && !f.vlan && f.ip && db.scdbMac = f.src &&
      db.scdbEntry.isSome then
    db.scdbEntry.bind fun i => (db.touch jiffies i).map fun db => (db, false)
  else if f.ip then
    if db.scdbMac ≠ f.src then db.adopt k jiffies f
    else
      match db.scdbEntry with
      | some i => (db.touch jiffies i).map fun db => (db, false)
      | none => some ({ db with scdbMac := .zero, scdbIp := (0, 0, 0, 0) }, true)
  else some (db, true)

end Db

/-! ## What holds -/

/-- The buckets are chains of these entries, every entry in the bucket of its address. -/
structure Chains (k : Kernel) (db : Db) (lists : Fin nat25HashSize → List ℕ) : Prop where
  holds : Holds db.nethash lists
  mem : ∀ h i, i ∈ lists h ↔ i ∈ db.live ∧ networkHash k.ipx (db.networkAddr i) = h

/-- What holds of the database, if these are the last inserts: the buckets are chains with
consistent pointers, an entry is in the bucket of its address, no address has two entries, the entry
of the transmit path is there, and an entry has the MAC address of the last insert. -/
structure Sound (k : Kernel) (db : Db) (latest : NetworkAddr → Option MacAddr) : Prop where
  chains : ∃ lists, Chains k db lists
  unique : ∀ i ∈ db.live, ∀ j ∈ db.live, db.networkAddr i = db.networkAddr j → i = j
  scdb : ∀ i, db.scdbEntry = some i → i ∈ db.live
  latest : ∀ i ∈ db.live, latest (db.networkAddr i) = some (db.macAddr i)

section Steps

variable {k : Kernel} {db db' : Db} {latest : NetworkAddr → Option MacAddr} {a : NetworkAddr}
  {i : ℕ} {jiffies : UInt64} {mac : MacAddr} {lists : Fin nat25HashSize → List ℕ}

theorem Chains.congr (h : Chains k db lists) (hnethash : db'.nethash = db.nethash)
    (hlive : db'.live = db.live) (haddr : db'.networkAddr = db.networkAddr) :
    Chains k db' lists := by
  obtain ⟨hholds, hmem⟩ := h
  refine ⟨hnethash ▸ hholds, ?_⟩
  rw [hlive, haddr]
  exact hmem

/-- Fields that the invariant does not look at may change. -/
theorem Sound.congr (h : Sound k db latest) (hnethash : db'.nethash = db.nethash)
    (hlive : db'.live = db.live) (haddr : db'.networkAddr = db.networkAddr)
    (hmac : db'.macAddr = db.macAddr) (hscdb : ∀ i, db'.scdbEntry = some i → i ∈ db.live) :
    Sound k db' latest := by
  obtain ⟨⟨lists, hchains⟩, hunique, -, hlatest⟩ := h
  refine ⟨⟨lists, hchains.congr hnethash hlive haddr⟩, ?_, ?_, ?_⟩
  · rw [hlive, haddr]
    exact hunique
  · rw [hlive]
    exact hscdb
  · rw [hlive, haddr, hmac]
    exact hlatest

/-- A bucket has no more entries than there are. -/
theorem Chains.length_le_card (hc : Chains k db lists) (h : Fin nat25HashSize) :
    (lists h).length ≤ db.live.card := by
  have hsub : (lists h).toFinset ⊆ db.live := fun i hi =>
    ((hc.mem h i).mp (List.mem_toFinset.mp hi)).1
  rw [← List.toFinset_card_of_nodup (hc.holds.nodup h)]
  exact Finset.card_le_card hsub

/-- **What a walk along a chain finds.** -/
theorem Sound.find (h : Sound k db latest) (a : NetworkAddr) : ∃ r, db.find k a = some r ∧
    (∀ i, r = some i → i ∈ db.live ∧ db.networkAddr i = a) ∧
    (r = none → ∀ i ∈ db.live, db.networkAddr i ≠ a) := by
  obtain ⟨lists, hc⟩ := h.chains
  refine ⟨_, find_of_chain _ (hc.holds.chain (networkHash k.ipx a)) (hc.length_le_card _),
    fun i hi => ?_, fun hnone i hi haddr => ?_⟩
  · have hlist := List.mem_of_find?_eq_some hi
    exact ⟨((hc.mem _ i).mp hlist).1, by simpa using List.find?_some hi⟩
  · have hlist : i ∈ lists (networkHash k.ipx a) := (hc.mem _ i).mpr ⟨hi, by rw [haddr]⟩
    exact List.find?_eq_none.mp hnone i hlist (decide_eq_true haddr)

def insertLatest (latest : NetworkAddr → Option MacAddr) (mac : MacAddr) (a : NetworkAddr) :
    NetworkAddr → Option MacAddr := Function.update latest a (some mac)

/-- The entries of a bucket after one was put in front. -/
theorem Chains.mem_link_iff (hc : Chains k db lists) {h : Fin nat25HashSize} {j : ℕ}
    (hout : ∀ h, i ∉ lists h) :
    j ∈ Function.update lists (networkHash k.ipx a) (i :: lists (networkHash k.ipx a)) h ↔
      j ∈ insert i db.live ∧
        networkHash k.ipx (Function.update db.networkAddr i a j) = h := by
  by_cases hji : j = i
  · subst hji
    rw [Function.update_self]
    by_cases hbucket : h = networkHash k.ipx a
    · rw [hbucket, Function.update_self]
      simp
    · rw [Function.update_of_ne hbucket]
      exact iff_of_false (hout h) fun hj => hbucket hj.2.symm
  · rw [Function.update_of_ne hji, Finset.mem_insert, or_iff_right hji, ← hc.mem]
    by_cases hbucket : h = networkHash k.ipx a
    · rw [hbucket, Function.update_self, List.mem_cons, or_iff_right hji]
    · rw [Function.update_of_ne hbucket]

/-- A new address has one entry. -/
theorem unique_insert {j m : ℕ} (hother : ∀ j ∈ db.live, db.networkAddr j ≠ a)
    (hunique : ∀ i ∈ db.live, ∀ j ∈ db.live, db.networkAddr i = db.networkAddr j → i = j)
    (hj : j ∈ insert i db.live) (hm : m ∈ insert i db.live)
    (heq : Function.update db.networkAddr i a j = Function.update db.networkAddr i a m) :
    j = m := by
  by_cases hji : j = i <;> by_cases hmi : m = i
  · rw [hji, hmi]
  · have hlive := Finset.mem_of_mem_insert_of_ne hm hmi
    rw [hji, Function.update_self, Function.update_of_ne hmi] at heq
    exact absurd heq.symm (hother m hlive)
  · have hlive := Finset.mem_of_mem_insert_of_ne hj hji
    rw [hmi, Function.update_self, Function.update_of_ne hji] at heq
    exact absurd heq (hother j hlive)
  · rw [Function.update_of_ne hji, Function.update_of_ne hmi] at heq
    exact hunique j (Finset.mem_of_mem_insert_of_ne hj hji) m
      (Finset.mem_of_mem_insert_of_ne hm hmi) heq

/-- **An insert.** -/
theorem Sound.networkInsert (h : Sound k db latest) (jiffies : UInt64) (malloc : Option ℕ)
    (mac : MacAddr) (a : NetworkAddr) : ∃ db', db.networkInsert k jiffies malloc mac a = some db' ∧
      Sound k db' (insertLatest latest mac a) := by
  obtain ⟨r, hfind, hsome, hnone⟩ := h.find a
  unfold Db.networkInsert
  rw [hfind, Option.map_some]
  cases r with
  | some i =>
    obtain ⟨hi, haddr⟩ := hsome i rfl
    obtain ⟨lists, hc⟩ := h.chains
    dsimp only
    refine ⟨_, rfl, ⟨lists, hc.congr rfl rfl rfl⟩, h.unique, h.scdb, fun j hj => ?_⟩
    change insertLatest latest mac a (db.networkAddr j) =
      some (Function.update db.macAddr i mac j)
    by_cases hji : j = i
    · rw [hji, Function.update_self, haddr, insertLatest, Function.update_self]
    · have hother : db.networkAddr j ≠ a := fun heq =>
        hji (h.unique j hj i hi (heq.trans haddr.symm))
      rw [Function.update_of_ne hji, insertLatest, Function.update_of_ne hother]
      exact h.latest j hj
  | none =>
    have hother := hnone rfl
    cases hmalloc : malloc.filter (· ∉ db.live) with
    | none =>
      refine ⟨_, rfl, h.chains, h.unique, h.scdb, fun j hj => ?_⟩
      rw [insertLatest, Function.update_of_ne (hother j hj)]
      exact h.latest j hj
    | some i =>
      have hfresh : i ∉ db.live := by
        have hfilter := Option.filter_eq_some_iff.mp hmalloc
        simpa using hfilter.2
      have hne : ∀ j ∈ db.live, j ≠ i := fun j hj heq => hfresh (heq ▸ hj)
      obtain ⟨lists, hc⟩ := h.chains
      have hout : ∀ h, i ∉ lists h := fun h hi => hfresh ((hc.mem h i).mp hi).1
      refine ⟨_, rfl, ⟨_, hc.holds.link hout (networkHash k.ipx a), fun h j => ?_⟩,
        fun j hj m hm heq => ?_, fun j hj => Finset.mem_insert_of_mem (h.scdb j hj), fun j hj => ?_⟩
      · exact hc.mem_link_iff hout
      · exact unique_insert hother h.unique hj hm heq
      · change insertLatest latest mac a (Function.update db.networkAddr i a j) =
          some (Function.update db.macAddr i mac j)
        by_cases hji : j = i
        · rw [hji, Function.update_self, Function.update_self, insertLatest, Function.update_self]
        · have hlive : j ∈ db.live := Finset.mem_of_mem_insert_of_ne hj hji
          rw [Function.update_of_ne hji, Function.update_of_ne hji, insertLatest,
            Function.update_of_ne (hother j hlive)]
          exact h.latest j hlive

/-- **A lookup**: the address of the last insert is written where an entry has not expired. -/
theorem Sound.lookup (h : Sound k db latest) (jiffies : UInt64) (a : NetworkAddr) (frame : Bytes) :
    ∃ db' frame' found, db.networkLookupAndReplace k jiffies a frame = some (db', frame', found) ∧
      Sound k db' latest ∧
      ∀ i ∈ db.live, db.networkAddr i = a → hasExpired k jiffies (db.ageingTimer i) = false →
        ∃ mac, latest a = some mac ∧ frame' = frame.overwrite 0 mac.toBytes := by
  obtain ⟨r, hfind, hsome, hnone⟩ := h.find a
  unfold Db.networkLookupAndReplace
  rw [hfind, Option.map_some]
  cases r with
  | none =>
    exact ⟨_, _, _, rfl, h, fun i hi haddr => absurd haddr (hnone rfl i hi)⟩
  | some i =>
    obtain ⟨hi, haddr⟩ := hsome i rfl
    dsimp only
    cases hexpired : hasExpired k jiffies (db.ageingTimer i) with
    | true =>
      refine ⟨_, _, _, rfl, h, fun j hj haddr' hfresh => ?_⟩
      rw [h.unique j hj i hi (haddr'.trans haddr.symm), hexpired] at hfresh
      cases hfresh
    | false =>
      refine ⟨_, _, _, rfl, h.congr rfl rfl rfl rfl h.scdb, fun j hj haddr' _ => ?_⟩
      have hlatest := h.latest i hi
      rw [haddr] at hlatest
      exact ⟨_, hlatest, rfl⟩

/-! ## Removal -/

/-- The entries of the buckets after one was taken out. -/
theorem Chains.mem_unlink_iff (hc : Chains k db lists) {h : Fin nat25HashSize} {j : ℕ} :
    j ∈ Function.update lists (networkHash k.ipx (db.networkAddr i))
        ((lists (networkHash k.ipx (db.networkAddr i))).erase i) h ↔
      j ∈ db.live.erase i ∧ networkHash k.ipx (db.networkAddr j) = h := by
  by_cases hbucket : h = networkHash k.ipx (db.networkAddr i)
  · rw [hbucket, Function.update_self, (hc.holds.nodup _).mem_erase_iff, hc.mem,
      Finset.mem_erase, and_assoc]
  · rw [Function.update_of_ne hbucket, hc.mem, Finset.mem_erase, and_assoc]
    refine ⟨fun hj => ⟨?_, hj⟩, fun hj => hj.2⟩
    rintro rfl
    exact hbucket hj.2.symm

def Visits (k : Kernel) (visit : Db → ℕ → Option Db) : Prop :=
  ∀ db latest i lists, Sound k db latest → i ∈ db.live → Chains k db lists →
    ∃ db' lists', visit db i = some db' ∧ Sound k db' latest ∧ Chains k db' lists' ∧
      (lists' = lists ∨ lists' = Function.update lists (networkHash k.ipx (db.networkAddr i))
        ((lists (networkHash k.ipx (db.networkAddr i))).erase i))

/-- **An entry is removed**, and the others stay. -/
theorem visits_remove (k : Kernel) : Visits k Db.remove := by
  intro db latest i lists h hi hc
  have hin : i ∈ lists (networkHash k.ipx (db.networkAddr i)) := (hc.mem _ i).mpr ⟨hi, rfl⟩
  obtain ⟨t, hunlink, hholds⟩ := hc.holds.unlink hin
  have hsub : ∀ j ∈ db.live.erase i, j ∈ db.live := fun j hj => Finset.mem_of_mem_erase hj
  have hunique : ∀ j ∈ db.live.erase i, ∀ m ∈ db.live.erase i,
      db.networkAddr j = db.networkAddr m → j = m := fun j hj m hm =>
    h.unique j (hsub j hj) m (hsub m hm)
  have hlatest : ∀ j ∈ db.live.erase i, latest (db.networkAddr j) = some (db.macAddr j) :=
    fun j hj => h.latest j (hsub j hj)
  unfold Db.remove
  by_cases hscdb : db.scdbEntry = some i
  · rw [if_pos hscdb]
    dsimp only
    rw [hunlink, Option.map_some]
    have hchains : Chains k { db with
        nethash := t, live := db.live.erase i, scdbEntry := none, scdbMac := .zero
        scdbIp := (0, 0, 0, 0) } _ := ⟨hholds, fun _ _ => hc.mem_unlink_iff⟩
    exact ⟨_, _, rfl, ⟨⟨_, hchains⟩, hunique, fun j hj => (nomatch hj), hlatest⟩, hchains, .inr rfl⟩
  · rw [if_neg hscdb]
    dsimp only
    rw [hunlink, Option.map_some]
    have hchains : Chains k { db with nethash := t, live := db.live.erase i } _ :=
      ⟨hholds, fun _ _ => hc.mem_unlink_iff⟩
    refine ⟨_, _, rfl, ⟨⟨_, hchains⟩, hunique, fun j hj => ?_, hlatest⟩, hchains, .inr rfl⟩
    refine Finset.mem_erase.mpr ⟨?_, h.scdb j hj⟩
    rintro rfl
    exact hscdb hj

theorem visits_expireEntry (k : Kernel) (jiffies : UInt64) :
    Visits k fun db i => db.expireEntry k jiffies i := by
  intro db latest i lists h hi hc
  unfold Db.expireEntry
  dsimp only
  split
  case isFalse => exact ⟨_, _, rfl, h, hc, .inl rfl⟩
  case isTrue =>
    have hsound : Sound k { db with
        useCount := Function.update db.useCount i (db.useCount i - 1) } latest :=
      h.congr rfl rfl rfl rfl h.scdb
    have hchains : Chains k { db with
        useCount := Function.update db.useCount i (db.useCount i - 1) } lists :=
      hc.congr rfl rfl rfl
    split
    case isFalse => exact ⟨_, _, rfl, hsound, hchains, .inl rfl⟩
    case isTrue => exact visits_remove k _ latest i lists hsound hi hchains

theorem next_of_chain {t : Table (Fin nat25HashSize)} {p : Slot (Fin nat25HashSize)}
    {c : Option ℕ} {done rest : List ℕ} (h : Chain t p c (done ++ i :: rest)) :
    t.next i = rest.head? := by
  induction done generalizing p c with
  | nil =>
    obtain ⟨-, -, hrest⟩ := h
    cases rest with
    | nil => exact hrest
    | cons j rest => exact hrest.1
  | cons j done ih => exact ih h.2.2

/-- **A loop over the rest of a chain.** -/
theorem Sound.walk {visit : Db → ℕ → Option Db} (hvisit : Visits k visit)
    {h : Fin nat25HashSize} {done rest : List ℕ} {n : ℕ} (hs : Sound k db latest)
    (hc : Chains k db lists) (hlist : lists h = done ++ rest) (hn : rest.length ≤ n) :
    ∃ db', Db.walk visit n rest.head? db = some db' ∧ Sound k db' latest := by
  induction rest generalizing n done db lists with
  | nil =>
    cases n with
    | zero => exact ⟨db, rfl, hs⟩
    | succ n => exact ⟨db, rfl, hs⟩
  | cons i rest ih =>
    cases n with
    | zero => cases hn
    | succ n =>
      have hmem : i ∈ lists h := by
        rw [hlist]
        simp
      obtain ⟨hlive, hbucket⟩ := (hc.mem h i).mp hmem
      have hchain := hc.holds.chain h
      rw [hlist] at hchain
      obtain ⟨db', lists', hdb', hs', hc', hlists⟩ := hvisit db latest i lists hs hlive hc
      have hwalk : Db.walk visit (n + 1) (some i) db = Db.walk visit n rest.head? db' := by
        rw [Db.walk, hdb', Option.bind_some, next_of_chain hchain]
      rw [List.head?_cons, hwalk]
      rcases hlists with rfl | rfl
      · have hpassed : lists' h = (done ++ [i]) ++ rest := by
          rw [hlist]
          simp
        exact ih hs' hc' hpassed (Nat.le_of_succ_le_succ hn)
      · have hnodup := hc.holds.nodup h
        rw [hlist] at hnodup
        have hnew : i ∉ done := fun hi =>
          (List.disjoint_of_nodup_append hnodup) hi List.mem_cons_self
        have hleft : Function.update lists (networkHash k.ipx (db.networkAddr i))
            ((lists (networkHash k.ipx (db.networkAddr i))).erase i) h = done ++ rest := by
          rw [hbucket, Function.update_self, hlist, List.erase_append_right _ hnew,
            List.erase_cons_head]
        exact ih hs' hc' hleft (Nat.le_of_succ_le_succ hn)

/-- **A loop over the buckets.** -/
theorem Sound.walkAll {visit : Db → ℕ → Option Db} (hvisit : Visits k visit)
    (hs : Sound k db latest) : ∃ db', db.walkAll visit = some db' ∧ Sound k db' latest := by
  unfold Db.walkAll
  generalize List.finRange nat25HashSize = buckets
  induction buckets generalizing db with
  | nil => exact ⟨db, rfl, hs⟩
  | cons h buckets ih =>
    obtain ⟨lists, hc⟩ := hs.chains
    have hhead : db.nethash.head h = (lists h).head? := by
      have hchain := hc.holds.chain h
      cases hl : lists h with
      | nil =>
        rw [hl] at hchain
        exact hchain
      | cons i l =>
        rw [hl] at hchain
        exact hchain.1
    obtain ⟨db', hwalk, hs'⟩ := hs.walk hvisit hc (List.nil_append (lists h)).symm
      (hc.length_le_card h)
    obtain ⟨db'', hrest, hs''⟩ := ih hs'
    refine ⟨db'', ?_, hs''⟩
    rw [List.foldlM_cons, hhead, hwalk]
    exact hrest

theorem Sound.touch (h : Sound k db latest) (hi : i ∈ db.live) (jiffies : UInt64) :
    ∃ db', db.touch jiffies i = some db' ∧ Sound k db' latest :=
  ⟨_, if_pos hi, h.congr rfl rfl rfl rfl h.scdb⟩

theorem Sound.adopt (h : Sound k db latest) (jiffies : UInt64) (f : TxFrame) :
    ∃ r, db.adopt k jiffies f = some r ∧ Sound k r.1 latest := by
  obtain ⟨r, hfind, hsome, -⟩ := h.find (generateIpv4NetworkAddr f.srcIp)
  unfold Db.adopt
  rw [hfind, Option.bind_some]
  cases r with
  | none => exact ⟨_, rfl, h.congr rfl rfl rfl rfl fun i hi => nomatch hi⟩
  | some i =>
    obtain ⟨hlive, -⟩ := hsome i rfl
    have hadopted : Sound k { db with
        scdbEntry := some i, scdbMac := f.src, scdbIp := f.srcIp } latest := by
      refine h.congr rfl rfl rfl rfl fun j hj => ?_
      cases hj
      exact hlive
    obtain ⟨db', htouch, hs⟩ := hadopted.touch hlive jiffies
    dsimp only
    rw [htouch]
    exact ⟨_, rfl, hs⟩

/-- **A frame of a client.** -/
theorem Sound.clientTx (h : Sound k db latest) (jiffies : UInt64) (brPort : Bool) (brMac : MacAddr)
    (f : TxFrame) :
    ∃ r, db.clientTx k jiffies brPort brMac f = some r ∧ Sound k r.1 latest := by
  have htouch : ∀ i, db.scdbEntry = some i →
      ∃ r, (db.touch jiffies i).map (fun db => (db, false)) = some r ∧ Sound k r.1 latest := by
    intro i hi
    obtain ⟨db', htouch, hs⟩ := h.touch (h.scdb i hi) jiffies
    exact ⟨(db', false), by rw [htouch, Option.map_some], hs⟩
  unfold Db.clientTx
  cases hentry : db.scdbEntry with
  | none =>
    split
    case isTrue hshort => simp at hshort
    case isFalse =>
      split
      case isFalse => exact ⟨_, rfl, h⟩
      case isTrue =>
        split
        case isTrue => exact h.adopt jiffies f
        case isFalse => exact ⟨_, rfl, h.congr rfl rfl rfl rfl fun i hi => nomatch hi⟩
  | some i =>
    split
    case isTrue => exact htouch i hentry
    case isFalse =>
      split
      case isFalse => exact ⟨_, rfl, h⟩
      case isTrue =>
        split
        case isTrue => exact h.adopt jiffies f
        case isFalse => exact htouch i hentry

end Steps

/-- An operation on the database, at a time. -/
inductive DbOp
  | insert (jiffies : UInt64) (malloc : Option ℕ) (mac : MacAddr) (a : NetworkAddr)
  | lookup (jiffies : UInt64) (a : NetworkAddr) (frame : Bytes)
  | expire (jiffies : UInt64)
  | cleanup
  | clientTx (jiffies : UInt64) (brPort : Bool) (brMac : MacAddr) (f : TxFrame)

def dbStep (k : Kernel) (s : Db × (NetworkAddr → Option MacAddr)) :
    DbOp → Option (Db × (NetworkAddr → Option MacAddr))
  | .insert jiffies malloc mac a =>
    (s.1.networkInsert k jiffies malloc mac a).map fun db => (db, insertLatest s.2 mac a)
  | .lookup jiffies a frame =>
    (s.1.networkLookupAndReplace k jiffies a frame).map fun r => (r.1, s.2)
  | .expire jiffies => (s.1.expire k jiffies).map fun db => (db, s.2)
  | .cleanup => s.1.cleanup.map fun db => (db, s.2)
  | .clientTx jiffies brPort brMac f =>
    (s.1.clientTx k jiffies brPort brMac f).map fun r => (r.1, s.2)

/-- The database when the driver is loaded. -/
def Db.initial : Db where
  nethash := ⟨fun _ => none, fun _ => none, fun _ => none⟩
  live := ∅
  networkAddr _ := generateIpv4NetworkAddr (0, 0, 0, 0)
  macAddr _ := .zero
  useCount _ := 0
  ageingTimer _ := 0
  scdbEntry := none
  scdbMac := .zero
  scdbIp := (0, 0, 0, 0)

section Runs

variable {k : Kernel} {s : Db × (NetworkAddr → Option MacAddr)}

theorem sound_initial (k : Kernel) : Sound k .initial fun _ => none := by
  refine ⟨⟨fun _ => [], ⟨⟨fun h => rfl, fun h => List.nodup_nil, ?_⟩, fun h i => ?_⟩⟩, ?_, ?_, ?_⟩
  · intro h h' i hi
    cases hi
  · simp [Db.initial]
  · intro i hi
    cases hi
  · intro i hi
    cases hi
  · intro i hi
    cases hi

/-- **Every operation succeeds and keeps what holds.** -/
theorem sound_step (h : Sound k s.1 s.2) (op : DbOp) :
    ∃ s', dbStep k s op = some s' ∧ Sound k s'.1 s'.2 := by
  cases op with
  | insert jiffies malloc mac a =>
    obtain ⟨db', hdb, hs⟩ := h.networkInsert jiffies malloc mac a
    exact ⟨(db', insertLatest s.2 mac a), by rw [dbStep, hdb, Option.map_some], hs⟩
  | lookup jiffies a frame =>
    obtain ⟨db', frame', found, hdb, hs, -⟩ := h.lookup jiffies a frame
    exact ⟨(db', s.2), by rw [dbStep, hdb, Option.map_some], hs⟩
  | expire jiffies =>
    obtain ⟨db', hdb, hs⟩ := h.walkAll (visits_expireEntry k jiffies)
    exact ⟨(db', s.2), by rw [dbStep, Db.expire, hdb, Option.map_some], hs⟩
  | cleanup =>
    obtain ⟨db', hdb, hs⟩ := h.walkAll (visits_remove k)
    exact ⟨(db', s.2), by rw [dbStep, Db.cleanup, hdb, Option.map_some], hs⟩
  | clientTx jiffies brPort brMac f =>
    obtain ⟨r, hr, hs⟩ := h.clientTx jiffies brPort brMac f
    exact ⟨(r.1, s.2), by rw [dbStep, hr, Option.map_some], hs⟩

theorem sound_run (h : Sound k s.1 s.2) (ops : List DbOp) :
    ∃ s', ops.foldlM (dbStep k) s = some s' ∧ Sound k s'.1 s'.2 := by
  induction ops generalizing s with
  | nil => exact ⟨s, rfl, h⟩
  | cons op ops ih =>
    obtain ⟨s', hstep, hs⟩ := sound_step h op
    obtain ⟨s'', hrest, hs'⟩ := ih hs
    refine ⟨s'', ?_, hs'⟩
    rw [List.foldlM_cons, hstep]
    exact hrest

end Runs

/-- **The database is sound after every run**, and a lookup of an address whose entry has not
expired writes the MAC address of the last insert of the address over the destination, and nothing
else. -/
theorem nat25_db_sound (k : Kernel) (ops : List DbOp) :
    ∃ db latest, ops.foldlM (dbStep k) (.initial, fun _ => none) = some (db, latest) ∧
      Sound k db latest ∧
      ∀ jiffies a frame, ∃ db' frame' found,
        db.networkLookupAndReplace k jiffies a frame = some (db', frame', found) ∧
        ∀ i ∈ db.live, db.networkAddr i = a → hasExpired k jiffies (db.ageingTimer i) = false →
          ∃ mac, latest a = some mac ∧ frame' = frame.overwrite 0 mac.toBytes := by
  obtain ⟨⟨db, latest⟩, hrun, hs⟩ :=
    @sound_run k (.initial, fun _ => none) (sound_initial k) ops
  refine ⟨db, latest, hrun, hs, fun jiffies a frame => ?_⟩
  obtain ⟨db', frame', found, hlookup, -, hwrite⟩ := hs.lookup jiffies a frame
  exact ⟨db', frame', found, hlookup, hwrite⟩

end Rtl88x2eu.Nat25
