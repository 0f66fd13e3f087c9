import Rtl88x2eu.Lib.Memory
import Rtl88x2eu.Recv.Attrib

/-!
# Radiotap headers

A packet that is injected comes with a radiotap header: bitmap words that say which fields follow,
and the fields, each at its alignment. The iterator looks at one bit after the other; where it
stands in the header it knows as the difference of two pointers, an unsigned 64-bit number.

## Main definitions

* `Skb`
* `RtapIterator`, `rtapIteratorInit`, `rtapPass`: the iterator, and one pass of the loop in
  `rtw_ieee80211_radiotap_iterator_next`
* `radiotapArgs`, `VendorOk`

## Main results

* `radiotapArgs_reads`: the iterator reads the packet only
* `RtapOk.walk`: so does every round of its loop
-/

namespace Rtl88x2eu.Xmit

open Memory

/-- The memory around an `sk_buff`, by the 64-bit offset from `skb->data`. -/
structure Skb where
  mem : ℕ → UInt8
  /-- `skb->len`. -/
  len : ℕ

def Skb.le16 (skb : Skb) (o : ℕ) : ℕ :=
  (skb.mem (o % 2 ^ 64)).toNat + 256 * (skb.mem ((o + 1) % 2 ^ 64)).toNat

def Skb.le32 (skb : Skb) (o : ℕ) : ℕ := skb.le16 o + 65536 * skb.le16 (o + 2)

def offsets (o n : ℕ) : List ℕ := (List.range n).map fun i => (o + i) % 2 ^ 64

def radiotapHdrLen : ℕ := 8

def ieee80211GetRadiotapLen (skb : Skb) : ℕ := skb.le16 2

/-! ## The iterator -/

/-- `rtap_namespace_sizes`: alignment and size. The field with index 18 has none. -/
def rtapNamespaceSizes : List (ℕ × ℕ) :=
  [(8, 8), (1, 1), (1, 1), (2, 4), (2, 2), (1, 1), (1, 1), (2, 2), (2, 2), (2, 2), (1, 1), (1, 1),
    (1, 1), (1, 1), (2, 2), (2, 2), (1, 1), (1, 1), (0, 0), (1, 3), (4, 8), (2, 12)]

/-- `struct ieee80211_radiotap_iterator`. Pointers are offsets from `_rtheader`. -/
structure RtapIterator where
  arg : ℕ
  argIndex : ℕ
  bitmapShifter : ℕ
  nextBitmap : ℕ
  nextNsData : ℕ
  maxLength : ℕ
  resetOnExt : Bool
  /-- `current_namespace == &radiotap_ns`; it is null otherwise. -/
  radiotapNs : Bool

/-- The loop of `rtw_ieee80211_radiotap_iterator_init` over the extended bitmaps: none is
`-EINVAL`. The first argument bounds the rounds. -/
def rtapExtend (skb : Skb) (maxLength : ℕ) : ℕ → ℕ → Option ℕ × List ℕ
  | 0, _ => (none, [])
  | n + 1, arg =>
    if (skb.le32 arg).testBit 31 then
      if maxLength < arg + 4 + 4 then (none, offsets arg 4)
      else
        let (r, reads) := rtapExtend skb maxLength n (arg + 4)
        (r, offsets arg 4 ++ reads)
    else (some (arg + 4), offsets arg 4)

/-- `rtw_ieee80211_radiotap_iterator_init`, with the offsets that it reads. `_next_ns_data` is not
set: `stale` is what the stack holds there. -/
def rtapIteratorInit (skb : Skb) (stale : ℕ) : Option RtapIterator × List ℕ :=
  if skb.len < radiotapHdrLen then (none, [])
  else if skb.mem 0 ≠ 0 then (none, [0])
  else
    let maxLength := skb.le16 2
    if skb.len < maxLength then (none, offsets 0 4)
    else
      let it (arg : ℕ) : RtapIterator :=
        ⟨arg, 0, skb.le32 4, radiotapHdrLen, stale % 2 ^ 64, maxLength, false, true⟩
      if (skb.le32 4).testBit 31 then
        if maxLength < radiotapHdrLen + 4 then (none, offsets 0 8)
        else
          let (r, reads) := rtapExtend skb maxLength maxLength radiotapHdrLen
          (r.map it, offsets 0 8 ++ reads)
      else (some (it radiotapHdrLen), offsets 0 8)

def RtapIterator.alignSize (it : RtapIterator) : Option (ℕ × ℕ) :=
  match it.argIndex % 32 with
  | 29 | 31 => some (1, 0)
  | 30 => some (2, 6)
  | _ => if it.radiotapNs then rtapNamespaceSizes[it.argIndex]? else some (0, 0)

def RtapIterator.nextEntry (it : RtapIterator) : RtapIterator :=
  { it with bitmapShifter := it.bitmapShifter / 2, argIndex := it.argIndex + 1 }

def RtapIterator.aligned (it : RtapIterator) (align : ℕ) : ℕ :=
  if it.arg % align = 0 then it.arg else (it.arg + (align - it.arg % align)) % 2 ^ 64

/-- How a pass ends: with an error or the last field, with the next bit, or with a field. -/
inductive RtapNext
  | stop
  | next (it : RtapIterator)
  | hit (it : RtapIterator) (thisArgIndex thisArg : ℕ)

/-- One pass of the loop in `rtw_ieee80211_radiotap_iterator_next`, with the offsets that it
reads. No vendor namespaces are registered. -/
def rtapPass (skb : Skb) (it : RtapIterator) : RtapNext × List ℕ :=
  let bit := it.argIndex % 32
  if it.bitmapShifter % 2 = 0 then
    if bit = 31 then (.stop, []) else (.next it.nextEntry, [])
  else
    match it.alignSize with
    | none => (.stop, [])
    | some (0, _) => (.next { it with arg := it.nextNsData, radiotapNs := false }.nextEntry, [])
    | some (align, size) =>
      let arg := it.aligned align
      let past := (arg + size) % 2 ^ 64
      if it.maxLength < past then (.stop, [])
      else if bit = 30 then
        let nsData := (past + skb.le16 (arg + 4)) % 2 ^ 64
        if it.maxLength < nsData then (.stop, offsets arg 6)
        else
          let it := { it with
            arg := nsData, nextNsData := nsData, resetOnExt := true, radiotapNs := false }
          (.hit it.nextEntry 30 arg, offsets arg 6)
      else if bit = 29 then
        let it := { it with arg := past, resetOnExt := true, radiotapNs := true }
        (.next it.nextEntry, [])
      else if bit = 31 then
        let next := { it with
          arg := past
          bitmapShifter := skb.le32 it.nextBitmap
          nextBitmap := it.nextBitmap + 4
          argIndex := if it.resetOnExt then 0 else it.argIndex + 1
          resetOnExt := false }
        (.next next, offsets it.nextBitmap 4)
      else (.hit { it with arg := past }.nextEntry it.argIndex arg, [])

/-! ## What the header asks for -/

/-- The local variables of `rtw_monitor_xmit_entry`. -/
structure TxArgs where
  /-- `MGN_1M` unless the header says otherwise. -/
  fixedRate : ℕ := 0x02
  sgi : ℕ := 0
  bwidth : ℕ := 0
  ldpc : ℕ := 0
  stbc : ℕ := 0
  txflags : ℕ := 0
deriving DecidableEq, Repr

def mgnMcs0 : ℕ := 0x80

def mgnVht1ssMcs0 : ℕ := 0xa0

/-- The `IEEE80211_RADIOTAP_MCS` case. -/
def TxArgs.mcs (v : TxArgs) (mcsHave flags rate : ℕ) : TxArgs :=
  let rate := if 31 < rate % 128 then 0 else rate % 128
  let v := if mcsHave.testBit 1 then { v with fixedRate := rate + mgnMcs0 } else v
  let v := if mcsHave.testBit 2 && flags.testBit 2 then { v with sgi := 1 } else v
  let v := if mcsHave.testBit 0 && flags.testBit 0 then { v with bwidth := 1 } else v
  let v := if mcsHave.testBit 4 && flags.testBit 4 then { v with ldpc := 1 } else v
  if mcsHave.testBit 5 then { v with stbc := flags / 32 % 4 } else v

/-- The `IEEE80211_RADIOTAP_VHT` case. -/
def TxArgs.vht (v : TxArgs) (known flags bandwidth mcsNss coding : ℕ) : TxArgs :=
  let v := if known.testBit 2 && flags.testBit 2 then { v with sgi := 1 } else v
  let v := if known.testBit 0 && flags.testBit 0 then { v with stbc := 1 } else v
  let bw := bandwidth % 32
  let bwidth := if 1 ≤ bw ∧ bw ≤ 3 then 1 else if 4 ≤ bw ∧ bw ≤ 10 then 2 else 0
  let v := if known.testBit 6 then { v with bwidth := bwidth } else v
  let v := if coding.testBit 0 then { v with ldpc := 1 } else v
  let mcs := mcsNss / 16
  let nss := mcsNss % 16
  if 0 < nss then
    { v with fixedRate := (mgnVht1ssMcs0 + ((min nss 4 - 1) * 10 + min mcs 9)) % 256 }
  else v

def usedOctets : ℕ → ℕ
  | 2 => 1
  | 15 => 2
  | 19 => 3
  | 21 => 9
  | _ => 0

/-- The `switch` over the fields, with the offsets that it may read. -/
def TxArgs.useArg (skb : Skb) (v : TxArgs) (thisArgIndex thisArg : ℕ) : TxArgs × List ℕ :=
  let octet (i : ℕ) : ℕ := (skb.mem ((thisArg + i) % 2 ^ 64)).toNat
  let v :=
    match thisArgIndex with
    | 2 => { v with fixedRate := octet 0 }
    | 15 => { v with txflags := skb.le16 thisArg }
    | 19 => v.mcs (octet 0) (octet 1) (octet 2)
    | 21 => v.vht (octet 0) (octet 2) (octet 3) (octet 4) (octet 8)
    | _ => v
  (v, offsets thisArg (usedOctets thisArgIndex))

/-- The loop of `rtw_monitor_xmit_entry` over the fields, a pass of the iterator in each round. The
first argument bounds the rounds. -/
def rtapWalk (skb : Skb) : ℕ → RtapIterator → TxArgs → TxArgs × List ℕ
  | 0, _, v => (v, [])
  | n + 1, it, v =>
    match rtapPass skb it with
    | (.stop, reads) => (v, reads)
    | (.next it, reads) =>
      let (v, reads') := rtapWalk skb n it v
      (v, reads ++ reads')
    | (.hit it thisArgIndex thisArg, reads) =>
      let (v, used) := v.useArg skb thisArgIndex thisArg
      let (v, reads') := rtapWalk skb n it v
      (v, reads ++ used ++ reads')

def rtapRounds (maxLength : ℕ) : ℕ := 8 * maxLength + 32

/-- What a header asks for, and the offsets that were read. -/
def radiotapArgs (skb : Skb) (stale : ℕ) : TxArgs × List ℕ :=
  match rtapIteratorInit skb stale with
  | (none, reads) => ({}, reads)
  | (some it, reads) =>
    let (v, reads') := rtapWalk skb (rtapRounds it.maxLength) it {}
    (v, reads ++ reads')

/-! ## The iterator reads the packet only -/

section Reads

variable {skb : Skb} {it it' : RtapIterator} {stale o n : ℕ} {reads : List ℕ}

def IsBitmap (skb : Skb) (o : ℕ) : Prop :=
  o = 4 ∨ o + 4 ≤ ieee80211GetRadiotapLen skb

/-- The 64-bit offsets from which six octets would start before the packet. -/
def StalePtr (g : ℕ) : Prop := 2 ^ 64 - 7 ≤ g ∧ g ≤ 2 ^ 64 - 2

/-- No bitmap word has the field without a size and a vendor namespace behind it, or what the stack
holds is no pointer to the octets before the packet. -/
def VendorOk (skb : Skb) (stale : ℕ) : Prop :=
  StalePtr (stale % 2 ^ 64) → ∀ o, IsBitmap skb o →
    ¬((skb.le32 o).testBit 18 = true ∧ (skb.le32 o).testBit 29 = false ∧
      (skb.le32 o).testBit 30 = true)

theorem mem_offsets {i : ℕ} (h : i ∈ offsets o n) (hlen : o + n ≤ 2 ^ 64) : o ≤ i ∧ i < o + n := by
  obtain ⟨j, hj, rfl⟩ := List.mem_map.mp h
  rw [List.mem_range] at hj
  rw [Nat.mod_eq_of_lt (by omega)]
  omega

structure Scan (skb : Skb) (it : RtapIterator) : Prop where
  maxLength : it.maxLength = ieee80211GetRadiotapLen skb
  len : it.maxLength ≤ skb.len
  bitmap : 8 ≤ it.nextBitmap
  isBitmap : IsBitmap skb (it.nextBitmap - 4)
  shifter : it.bitmapShifter = skb.le32 (it.nextBitmap - 4) / 2 ^ (it.argIndex % 32)
  room : ∀ j, (∀ i ≤ j, (skb.le32 (it.nextBitmap - 4 + 4 * i)).testBit 31 = true) →
    it.nextBitmap + 4 * j + 4 ≤ it.maxLength

/-- Where the arguments stand. The pointer is stale from the field without a size on to the end of
the word; a namespace bit in between would end the iteration. -/
structure ArgPtr (skb : Skb) (stale : ℕ) (it : RtapIterator) : Prop where
  lt : it.arg < 2 ^ 64
  ns : it.radiotapNs = true → it.arg ≤ it.maxLength + 8
  isStale : StalePtr it.arg → it.arg = stale % 2 ^ 64 ∧ it.radiotapNs = false ∧
    18 < it.argIndex % 32 ∧ (skb.le32 (it.nextBitmap - 4)).testBit 18 = true ∧
    (29 < it.argIndex % 32 → (skb.le32 (it.nextBitmap - 4)).testBit 29 = false)
  nsData : it.nextNsData < 2 ^ 64
  nsStale : StalePtr it.nextNsData → it.nextNsData = stale % 2 ^ 64
  null : it.radiotapNs = false → StalePtr it.nextNsData → StalePtr it.arg

theorem le16_lt (skb : Skb) (o : ℕ) : skb.le16 o < 65536 := by
  have h₁ := (skb.mem (o % 2 ^ 64)).toNat_lt
  have h₂ := (skb.mem ((o + 1) % 2 ^ 64)).toNat_lt
  unfold Skb.le16
  omega

theorem Scan.maxLength_lt (h : Scan skb it) : it.maxLength < 65536 :=
  h.maxLength ▸ le16_lt skb 2

/-- The present bit of the iterator. -/
theorem Scan.bit (h : Scan skb it) :
    it.bitmapShifter % 2 ≠ 0 ↔
      (skb.le32 (it.nextBitmap - 4)).testBit (it.argIndex % 32) = true := by
  rw [h.shifter, Nat.testBit_eq_decide_div_mod_eq, decide_eq_true_eq]
  omega

theorem Scan.nextEntry (h : Scan skb it) (hbit : it.argIndex % 32 ≠ 31) :
    Scan skb it.nextEntry := by
  refine ⟨h.maxLength, h.len, h.bitmap, h.isBitmap, ?_, h.room⟩
  have hidx : (it.argIndex + 1) % 32 = it.argIndex % 32 + 1 := by omega
  show it.bitmapShifter / 2 = _ / 2 ^ ((it.argIndex + 1) % 32)
  rw [hidx, h.shifter, pow_succ, Nat.div_div_eq_div_mul]
  rfl

/-- The next bitmap word. -/
theorem Scan.ext (h : Scan skb it) (hbit : it.argIndex % 32 = 31)
    (hset : it.bitmapShifter % 2 ≠ 0) {idx : ℕ} (hidx : idx % 32 = 0) :
    it.nextBitmap + 4 ≤ it.maxLength ∧
      Scan skb { it with
        bitmapShifter := skb.le32 it.nextBitmap, nextBitmap := it.nextBitmap + 4
        argIndex := idx } := by
  have hlast := h.bit.mp hset
  rw [hbit] at hlast
  have hroom := h.room 0 fun i hi => by
    obtain rfl := Nat.le_zero.mp hi
    exact hlast
  refine ⟨by omega, h.maxLength, h.len, Nat.le_add_right_of_le h.bitmap, .inr ?_, ?_, ?_⟩
  · rw [← h.maxLength]
    dsimp only
    omega
  · dsimp only
    rw [hidx, pow_zero, Nat.div_one, Nat.add_sub_cancel]
  · intro j hj
    have hbitmap := h.bitmap
    have hnext := h.room (j + 1) fun i hi => by
      rcases i with _ | i
      · exact hlast
      · have hi' := hj i (by omega)
        dsimp only at hi'
        rwa [show it.nextBitmap - 4 + 4 * (i + 1) = it.nextBitmap + 4 - 4 + 4 * i by omega]
    dsimp only
    omega

end Reads

/-! ### A pass -/

section Passes

variable {skb : Skb} {it it' : RtapIterator} {stale align size : ℕ}

theorem rtapNamespaceSizes_spec {idx : ℕ} (h : rtapNamespaceSizes[idx]? = some (align, size)) :
    align ≤ 8 ∧ size ≤ 12 ∧ usedOctets idx ≤ size ∧ (align = 0 → idx = 18) := by
  have hall : ∀ i : Fin 22, ∀ p ∈ rtapNamespaceSizes[i.val]?,
      p.1 ≤ 8 ∧ p.2 ≤ 12 ∧ usedOctets i ≤ p.2 ∧ (p.1 = 0 → i.val = 18) := by decide
  have hidx : idx < 22 := (List.getElem?_eq_some_iff.mp h).1
  exact hall ⟨idx, hidx⟩ _ h

def RtapIterator.rounds (it : RtapIterator) : ℕ :=
  8 * (it.maxLength + 4 - it.nextBitmap) + (32 - it.argIndex % 32)

/-- The invariant of the iteration. -/
structure RtapOk (skb : Skb) (stale : ℕ) (it : RtapIterator) : Prop extends Scan skb it,
    ArgPtr skb stale it

/-- What a pass leaves: the invariant, with fewer rounds to go. -/
structure Passed (skb : Skb) (stale : ℕ) (it it' : RtapIterator) : Prop where
  ok : RtapOk skb stale it'
  rounds : it'.rounds < it.rounds
  maxLength : it'.maxLength = it.maxLength

structure PassOk (skb : Skb) (stale : ℕ) (it : RtapIterator) (r : RtapNext × List ℕ) : Prop where
  reads : ∀ o ∈ r.2, o < skb.len
  next : ∀ it', r.1 = .next it' → Passed skb stale it it'
  hit : ∀ it' idx arg, r.1 = .hit it' idx arg → Passed skb stale it it' ∧
    arg + usedOctets idx ≤ it.maxLength

theorem PassOk.stop {reads : List ℕ} (h : ∀ o ∈ reads, o < skb.len) :
    PassOk skb stale it (.stop, reads) :=
  ⟨h, fun _ h => (nomatch h), fun _ _ _ h => (nomatch h)⟩

theorem PassOk.ofNext {reads : List ℕ} (hreads : ∀ o ∈ reads, o < skb.len)
    (h : Passed skb stale it it') : PassOk skb stale it (.next it', reads) :=
  ⟨hreads, fun _ heq => by cases heq; exact h, fun _ _ _ heq => (nomatch heq)⟩

theorem PassOk.ofHit {reads : List ℕ} {idx arg : ℕ} (hreads : ∀ o ∈ reads, o < skb.len)
    (h : Passed skb stale it it') (harg : arg + usedOctets idx ≤ it.maxLength) :
    PassOk skb stale it (.hit it' idx arg, reads) :=
  ⟨hreads, fun _ heq => (nomatch heq), fun _ _ _ heq => by cases heq; exact ⟨h, harg⟩⟩

theorem reads_nil : ∀ o ∈ ([] : List ℕ), o < skb.len := fun _ h => absurd h List.not_mem_nil

theorem reads_offsets {o n : ℕ} (h : o + n ≤ skb.len) (hlt : o + n ≤ 2 ^ 64) :
    ∀ i ∈ offsets o n, i < skb.len := fun _ hi => (mem_offsets hi hlt).2.trans_le h

theorem Scan.of_eq (h : Scan skb it) (hmax : it'.maxLength = it.maxLength)
    (hbitmap : it'.nextBitmap = it.nextBitmap) (hshifter : it'.bitmapShifter = it.bitmapShifter)
    (hidx : it'.argIndex = it.argIndex) : Scan skb it' := by
  obtain ⟨h₁, h₂, h₃, h₄, h₅, h₆⟩ := h
  constructor <;> simp only [hmax, hbitmap, hshifter, hidx] <;> assumption

theorem rounds_nextEntry (it : RtapIterator) (hbit : it.argIndex % 32 ≠ 31) :
    it.nextEntry.rounds < it.rounds := by
  have hidx : (it.argIndex + 1) % 32 = it.argIndex % 32 + 1 := by omega
  unfold RtapIterator.rounds RtapIterator.nextEntry
  dsimp only
  rw [hidx]
  omega

theorem Passed.nextEntry (h : RtapOk skb stale it) (hbit : it.argIndex % 32 ≠ 31)
    (hscan : Scan skb it'.nextEntry) (hrounds : it'.nextEntry.rounds = it.nextEntry.rounds)
    (hmax : it'.maxLength = it.maxLength) (harg : it'.arg ≤ it.maxLength)
    (hns : it'.nextNsData < 2 ^ 64)
    (hstale : StalePtr it'.nextNsData → it'.nextNsData = stale % 2 ^ 64)
    (hnull : it'.radiotapNs = false → ¬StalePtr it'.nextNsData) :
    Passed skb stale it it'.nextEntry := by
  have hlt := h.maxLength_lt
  have hsmall : ¬StalePtr it'.arg := fun hs => by
    unfold StalePtr at hs
    omega
  refine ⟨⟨hscan, ?_, fun _ => ?_, fun hs => absurd hs hsmall, hns, hstale,
    fun hf hs => absurd hs (hnull hf)⟩, ?_, hmax⟩
  · show it'.arg < 2 ^ 64
    omega
  · show it'.arg ≤ it'.maxLength + 8
    omega
  · rw [hrounds]
    exact rounds_nextEntry it hbit

/-- A bit that is clear. -/
theorem RtapOk.clear (h : RtapOk skb stale it) (hbit : it.argIndex % 32 ≠ 31)
    (hclear : it.bitmapShifter % 2 = 0) : Passed skb stale it it.nextEntry := by
  have hidx : (it.argIndex + 1) % 32 = it.argIndex % 32 + 1 := by omega
  refine ⟨⟨h.toScan.nextEntry hbit, h.lt, h.ns, fun hs => ?_, h.nsData, h.nsStale, h.null⟩,
    rounds_nextEntry it hbit, rfl⟩
  obtain ⟨harg, hns, hgt, h18, h29⟩ := h.isStale hs
  show it.arg = _ ∧ it.radiotapNs = false ∧ 18 < (it.argIndex + 1) % 32 ∧ _ ∧
    (29 < (it.argIndex + 1) % 32 → _)
  rw [hidx]
  refine ⟨harg, hns, by omega, h18, fun hgt' => ?_⟩
  rcases Nat.lt_or_ge 29 (it.argIndex % 32) with hlt | hge
  · exact h29 hlt
  · have h29' : it.argIndex % 32 = 29 := by omega
    have hbit29 := h.bit.not.mp (not_not.mpr hclear)
    rw [h29'] at hbit29
    exact Bool.eq_false_of_not_eq_true hbit29

/-- A field without a size. -/
theorem RtapOk.unknown (h : RtapOk skb stale it) (hset : it.bitmapShifter % 2 ≠ 0)
    (hbit : it.argIndex % 32 < 29) (hidx : it.radiotapNs = true → it.argIndex = 18) :
    Passed skb stale it { it with arg := it.nextNsData, radiotapNs := false }.nextEntry := by
  have hidx' : (it.argIndex + 1) % 32 = it.argIndex % 32 + 1 := by omega
  have hbit' := h.bit.mp hset
  have hscan : Scan skb { it with arg := it.nextNsData, radiotapNs := false }.nextEntry :=
    (h.toScan.nextEntry (by omega)).of_eq rfl rfl rfl rfl
  refine ⟨⟨hscan, h.nsData, fun hns => (nomatch hns), fun hs => ?_, h.nsData,
    h.nsStale, fun _ => id⟩, rounds_nextEntry it (by omega), rfl⟩
  show it.nextNsData = _ ∧ false = false ∧ 18 < (it.argIndex + 1) % 32 ∧ _ ∧
    (29 < (it.argIndex + 1) % 32 → _)
  rw [hidx']
  refine ⟨h.nsStale hs, rfl, ?_⟩
  rcases hns : it.radiotapNs with _ | _
  · obtain ⟨-, -, hgt, h18, -⟩ := h.isStale (h.null hns hs)
    exact ⟨by omega, h18, fun hgt' => by omega⟩
  · have h18 := hidx hns
    rw [h18] at hbit'
    exact ⟨by omega, hbit', fun hgt' => by omega⟩

theorem aligned_one (it : RtapIterator) : it.aligned 1 = it.arg := by
  rw [RtapIterator.aligned, if_pos (Nat.mod_one _)]

/-- A namespace bit or the last bit of a word: it takes no octets. -/
theorem RtapOk.past (h : RtapOk skb stale it) (hpast : ¬it.maxLength < (it.arg + 0) % 2 ^ 64) :
    (it.arg + 0) % 2 ^ 64 = it.arg ∧ it.arg ≤ it.maxLength := by
  have hmod : (it.arg + 0) % 2 ^ 64 = it.arg := Nat.mod_eq_of_lt h.lt
  exact ⟨hmod, by omega⟩

theorem aligned_two_lt (hlt : it.arg < 2 ^ 64) (hs : ¬StalePtr it.arg) :
    it.aligned 2 + 6 < 2 ^ 64 := by
  unfold StalePtr at hs
  unfold RtapIterator.aligned
  split_ifs <;> omega

theorem aligned_small (it : RtapIterator) {align : ℕ} (halign : align ≤ 8) (hpos : align ≠ 0)
    (harg : it.arg < 65600) : it.aligned align < 65608 := by
  have hmod := Nat.mod_lt it.arg (Nat.pos_of_ne_zero hpos)
  unfold RtapIterator.aligned
  split_ifs <;> omega

/-- A vendor namespace: its six octets are in the header. -/
theorem RtapOk.vendor (h : RtapOk skb stale it) (hvendor : VendorOk skb stale)
    (hset : it.bitmapShifter % 2 ≠ 0) (hbit : it.argIndex % 32 = 30)
    (hpast : ¬it.maxLength < (it.aligned 2 + 6) % 2 ^ 64) :
    it.aligned 2 + 6 ≤ it.maxLength := by
  have hs : ¬StalePtr it.arg := by
    intro hs
    obtain ⟨harg, -, -, h18, h29⟩ := h.isStale hs
    refine hvendor (harg ▸ hs) _ h.isBitmap ⟨h18, h29 (by omega), ?_⟩
    rw [← hbit]
    exact h.bit.mp hset
  have hlt := aligned_two_lt h.lt hs
  rw [Nat.mod_eq_of_lt hlt] at hpast
  omega

/-- A pass keeps the invariant and reads the packet only. -/
theorem RtapOk.pass (h : RtapOk skb stale it) (hvendor : VendorOk skb stale) :
    PassOk skb stale it (rtapPass skb it) := by
  have hmax := h.maxLength_lt
  have hlen := h.len
  unfold rtapPass
  dsimp only
  split
  · rename_i hclear
    split
    · exact .stop reads_nil
    · rename_i hbit
      exact .ofNext reads_nil (h.clear hbit hclear)
  rename_i hset
  split
  · exact .stop reads_nil
  · rename_i size halign
    -- a field without a size, or one of a namespace that is not known
    have hfield : it.argIndex % 32 < 29 ∧ (it.radiotapNs = true → it.argIndex = 18) := by
      unfold RtapIterator.alignSize at halign
      split at halign
      · cases halign
      · cases halign
      · cases halign
      · rename_i h29 h31 h30
        have hne : it.argIndex % 32 ≠ 29 ∧ it.argIndex % 32 ≠ 31 ∧ it.argIndex % 32 ≠ 30 :=
          ⟨h29, h31, h30⟩
        refine ⟨by omega, fun hns => ?_⟩
        rw [if_pos hns] at halign
        exact (rtapNamespaceSizes_spec halign).2.2.2 rfl
    exact .ofNext reads_nil (h.unknown hset hfield.1 hfield.2)
  rename_i align size hzero halign
  split
  · exact .stop reads_nil
  rename_i hpast
  split
  · rename_i hbit
    obtain ⟨rfl, rfl⟩ : align = 2 ∧ size = 6 := by
      rw [RtapIterator.alignSize, hbit] at halign
      cases halign
      exact ⟨rfl, rfl⟩
    have hroom := h.vendor hvendor hset hbit hpast
    have hreads : ∀ o ∈ offsets (it.aligned 2) 6, o < skb.len :=
      reads_offsets (by omega) (by omega)
    split
    · exact .stop hreads
    rename_i hns
    have hvlen := le16_lt skb (it.aligned 2 + 4)
    rw [Nat.mod_eq_of_lt (show it.aligned 2 + 6 < 2 ^ 64 by omega)] at hns ⊢
    rw [Nat.mod_eq_of_lt (show it.aligned 2 + 6 + skb.le16 (it.aligned 2 + 4) < 2 ^ 64 by omega)]
      at hns ⊢
    have hsmall : ¬StalePtr (it.aligned 2 + 6 + skb.le16 (it.aligned 2 + 4)) := fun hs => by
      unfold StalePtr at hs
      omega
    refine .ofHit hreads ?_ (show it.aligned 2 + 0 ≤ it.maxLength by omega)
    exact .nextEntry h (by omega) ((h.toScan.nextEntry (by omega)).of_eq rfl rfl rfl rfl) rfl rfl
      (by dsimp only; omega) (by dsimp only; omega) (fun hs => absurd hs hsmall)
      fun _ => hsmall
  rename_i hbit30
  split
  · rename_i hbit
    obtain ⟨rfl, rfl⟩ : align = 1 ∧ size = 0 := by
      rw [RtapIterator.alignSize, hbit] at halign
      cases halign
      exact ⟨rfl, rfl⟩
    rw [aligned_one] at hpast ⊢
    obtain ⟨hmod, harg⟩ := h.past hpast
    rw [hmod]
    refine .ofNext reads_nil (.nextEntry h (by omega)
      ((h.toScan.nextEntry (by omega)).of_eq rfl rfl rfl rfl) rfl rfl harg h.nsData h.nsStale
      fun hf => (nomatch hf))
  rename_i hbit29
  split
  · rename_i hbit
    obtain ⟨rfl, rfl⟩ : align = 1 ∧ size = 0 := by
      rw [RtapIterator.alignSize, hbit] at halign
      cases halign
      exact ⟨rfl, rfl⟩
    rw [aligned_one] at hpast ⊢
    obtain ⟨hmod, harg⟩ := h.past hpast
    rw [hmod]
    have hidx : (if it.resetOnExt then 0 else it.argIndex + 1) % 32 = 0 := by
      split_ifs <;> omega
    obtain ⟨hroom, hscan⟩ := h.toScan.ext hbit hset hidx
    refine .ofNext (reads_offsets (by omega) (by omega)) ⟨⟨hscan.of_eq rfl rfl rfl rfl, h.lt,
      fun _ => ?_, fun hs => ?_, h.nsData, h.nsStale, h.null⟩, ?_, rfl⟩
    · dsimp only
      omega
    · unfold StalePtr at hs
      dsimp only at hs
      omega
    · unfold RtapIterator.rounds
      dsimp only
      rw [hidx, hbit]
      omega
  rename_i hbit31
  have hfield : it.radiotapNs = true ∧ rtapNamespaceSizes[it.argIndex]? = some (align, size) := by
    unfold RtapIterator.alignSize at halign
    split at halign
    · exact absurd (by assumption) hbit29
    · exact absurd (by assumption) hbit31
    · exact absurd (by assumption) hbit30
    · split_ifs at halign with hns
      · exact ⟨hns, halign⟩
      · cases halign
        exact absurd rfl hzero
  obtain ⟨hns, hsizes⟩ := hfield
  obtain ⟨halign8, hsize, hused, -⟩ := rtapNamespaceSizes_spec hsizes
  have harg := h.ns hns
  have hpos : align ≠ 0 := hzero
  have hsmall := aligned_small it halign8 hpos (by omega)
  rw [Nat.mod_eq_of_lt (show it.aligned align + size < 2 ^ 64 by omega)] at hpast ⊢
  refine .ofHit reads_nil ?_ (by omega)
  refine .nextEntry h hbit31 ((h.toScan.nextEntry hbit31).of_eq rfl rfl rfl rfl) rfl rfl
    (by dsimp only; omega) h.nsData h.nsStale fun hf => ?_
  dsimp only at hf
  rw [hns] at hf
  exact nomatch hf

end Passes

section Header

variable {skb : Skb} {it it' : RtapIterator} {stale maxLength n arg a : ℕ} {v : TxArgs}

theorem rtapExtend_spec (n arg : ℕ) (hlen : maxLength ≤ skb.len) (hmax : maxLength < 65536)
    (harg : arg + 4 ≤ maxLength) :
    (∀ o ∈ (rtapExtend skb maxLength n arg).2, o < skb.len) ∧
      ∀ a ∈ (rtapExtend skb maxLength n arg).1, a ≤ maxLength ∧
        ∀ j, (∀ i ≤ j, (skb.le32 (arg + 4 * i)).testBit 31 = true) →
          arg + 4 * j + 8 ≤ maxLength := by
  induction n generalizing arg with
  | zero => exact ⟨reads_nil, fun a ha => (nomatch ha)⟩
  | succ n ih =>
    have hreads : ∀ o ∈ offsets arg 4, o < skb.len := reads_offsets (by omega) (by omega)
    rw [rtapExtend]
    split_ifs with hset hroom
    · exact ⟨hreads, fun a ha => (nomatch ha)⟩
    · obtain ⟨hrest, hchain⟩ := ih (arg + 4) (by omega)
      refine ⟨fun o ho => ?_, fun a ha => ?_⟩
      · rcases List.mem_append.mp ho with ho | ho
        · exact hreads o ho
        · exact hrest o ho
      · obtain ⟨ha, hchain⟩ := hchain a ha
        refine ⟨ha, fun j hj => ?_⟩
        rcases j with _ | j
        · omega
        · have hnext := hchain j fun i hi => by
            have hi' := hj (i + 1) (by omega)
            rwa [show arg + 4 * (i + 1) = arg + 4 + 4 * i by omega] at hi'
          omega
    · refine ⟨hreads, fun a ha => ?_⟩
      obtain rfl := Option.some.inj ha
      refine ⟨harg, fun j hj => absurd (hj 0 (Nat.zero_le j)) ?_⟩
      exact hset

theorem rtapIteratorInit_spec (skb : Skb) (stale : ℕ) :
    (∀ o ∈ (rtapIteratorInit skb stale).2, o < skb.len) ∧
      ∀ it ∈ (rtapIteratorInit skb stale).1, RtapOk skb stale it ∧
        it.rounds ≤ rtapRounds it.maxLength := by
  have hmax := le16_lt skb 2
  -- the iterator behind the bitmaps
  have hok (arg : ℕ) (harg : arg ≤ skb.le16 2 + 8) (hlen : skb.le16 2 ≤ skb.len)
      (hroom : ∀ j, (∀ i ≤ j, (skb.le32 (4 + 4 * i)).testBit 31 = true) →
        8 + 4 * j + 4 ≤ skb.le16 2) :
      RtapOk skb stale ⟨arg, 0, skb.le32 4, radiotapHdrLen, stale % 2 ^ 64, skb.le16 2, false,
          true⟩ ∧
        RtapIterator.rounds ⟨arg, 0, skb.le32 4, radiotapHdrLen, stale % 2 ^ 64, skb.le16 2, false,
          true⟩ ≤ rtapRounds (skb.le16 2) := by
    refine ⟨⟨⟨rfl, hlen, le_rfl, .inl rfl, ?_, hroom⟩, ?_, fun _ => harg, fun hs => ?_,
      Nat.mod_lt _ (by decide), fun _ => rfl, fun hf => (nomatch hf)⟩, ?_⟩
    · exact (Nat.div_one _).symm
    · dsimp only
      omega
    · unfold StalePtr at hs
      dsimp only at hs
      omega
    · unfold RtapIterator.rounds rtapRounds radiotapHdrLen
      dsimp only
      omega
  unfold rtapIteratorInit
  dsimp only
  split_ifs with hshort hversion hlen hset hroom
  · exact ⟨reads_nil, fun it hit => (nomatch hit)⟩
  · refine ⟨fun o ho => ?_, fun it hit => (nomatch hit)⟩
    obtain rfl := List.mem_singleton.mp ho
    unfold radiotapHdrLen at hshort
    omega
  all_goals unfold radiotapHdrLen at hshort
  · exact ⟨reads_offsets (by omega) (by omega), fun it hit => (nomatch hit)⟩
  · exact ⟨reads_offsets (by omega) (by omega), fun it hit => (nomatch hit)⟩
  · unfold radiotapHdrLen at hroom
    obtain ⟨hreads, hspec⟩ := rtapExtend_spec (skb.le16 2) radiotapHdrLen (Nat.le_of_not_lt hlen)
      hmax (by unfold radiotapHdrLen; omega)
    refine ⟨fun o ho => ?_, fun it hit => ?_⟩
    · rcases List.mem_append.mp ho with ho | ho
      · exact reads_offsets (by omega) (by omega) o ho
      · exact hreads o ho
    · obtain ⟨a, ha, rfl⟩ := Option.map_eq_some_iff.mp hit
      obtain ⟨hle, hchain⟩ := hspec a ha
      refine hok a (by omega) (by omega) fun j hj => ?_
      rcases j with _ | j
      · omega
      · have hnext := hchain j fun i hi => by
          have hi' := hj (i + 1) (by omega)
          rwa [show 4 + 4 * (i + 1) = radiotapHdrLen + 4 * i by unfold radiotapHdrLen; omega] at hi'
        unfold radiotapHdrLen at hnext
        omega
  · refine ⟨reads_offsets (by omega) (by omega), fun it hit => ?_⟩
    obtain rfl := Option.some.inj hit
    exact hok radiotapHdrLen (by unfold radiotapHdrLen; omega) (by omega)
      fun j hj => absurd (hj 0 (Nat.zero_le j)) hset

/-- Every round reads the packet only. -/
theorem RtapOk.walk (h : RtapOk skb stale it) (hvendor : VendorOk skb stale) :
    ∀ o ∈ (rtapWalk skb n it v).2, o < skb.len := by
  induction n generalizing it v with
  | zero => exact reads_nil
  | succ n ih =>
    have hpass := h.pass hvendor
    have hlen := h.len
    have hmax := h.maxLength_lt
    rw [rtapWalk]
    revert hpass
    rcases rtapPass skb it with ⟨_ | it' | ⟨it', idx, arg⟩, reads⟩ <;> intro hpass
    · exact hpass.reads
    · intro o ho
      rcases List.mem_append.mp ho with ho | ho
      · exact hpass.reads o ho
      · exact ih (hpass.next it' rfl).ok o ho
    · obtain ⟨hpassed, hused⟩ := hpass.hit it' idx arg rfl
      intro o ho
      rcases List.mem_append.mp ho with ho | ho
      · rcases List.mem_append.mp ho with ho | ho
        · exact hpass.reads o ho
        · exact reads_offsets (by omega) (by omega) o ho
      · exact ih hpassed.ok o ho

/-- **The iterator reads the packet only.** -/
theorem radiotapArgs_reads (hvendor : VendorOk skb stale) :
    ∀ o ∈ (radiotapArgs skb stale).2, o < skb.len := by
  obtain ⟨hreads, hspec⟩ := rtapIteratorInit_spec skb stale
  unfold radiotapArgs
  revert hreads hspec
  rcases rtapIteratorInit skb stale with ⟨_ | it, reads⟩ <;> intro hreads hspec
  · exact hreads
  · intro o ho
    rcases List.mem_append.mp ho with ho | ho
    · exact hreads o ho
    · exact (hspec it rfl).1.walk hvendor o ho

end Header

end Rtl88x2eu.Xmit
