import Rtl88x2eu.Nat25.Pppoe

/-!
# Relay tags

The relay tag that `NAT25_INSERT` puts into a PADI or PADR of a client, and that `NAT25_LOOKUP`
takes out of a PADO or PADS that echoes it.

## Main definitions

* `ClientFrame`, `Reply`: a PADI or PADR of a client, and a PADO or PADS with a relay tag
* `RelayRoundTrip`, `Lucky`

## Main results

* `nat25InsertPppoe_none`, `nat25InsertPppoe_some`: what an insertion gives
* `nat25LookupPppoe_nil`, `nat25LookupPppoe_cons`: what a lookup makes of a reply
* `relayRoundTrip_iff`: the round trip
* `not_relayRoundTrip`: a frame without tags
-/

namespace Rtl88x2eu.Nat25

open Ie

/-! ## Clients and replies -/

def relayTag (data : Bytes) (h : data.length < 65536) : PppoeTag :=
  ⟨pttRelaySid, data, by decide, h⟩

structure ClientFrame where
  dst : MacAddr
  src : MacAddr
  verType : UInt8
  code : UInt8
  before : List PppoeTag
  /-- The data of a relay tag of the client. -/
  own : Option { d : Bytes // d.length ≤ 24 }
  after : List PppoeTag
  /-- What the frame holds behind the tags. -/
  pad : Bytes
  tailroom : Bytes
  discovery : code = 0x09 ∨ code = 0x19
  others : ∀ t ∈ before ++ after, t.type ≠ pttRelaySid
  fits : (encodeTags (before ++ after)).length ≤ 1494
  room : 12 ≤ tailroom.length

namespace ClientFrame

variable (f : ClientFrame)

def header : Bytes :=
  f.dst.toBytes ++ (f.src.toBytes ++ [0x88, 0x63, f.verType, f.code, 0, 0])

def ownData : Bytes := f.own.elim [] Subtype.val

theorem ownData_le : f.ownData.length ≤ 24 := by
  unfold ownData
  cases f.own with
  | none => exact Nat.zero_le _
  | some d => exact d.2

def ownTags : List PppoeTag :=
  f.own.elim [] fun d => [relayTag d.1 (lt_of_le_of_lt d.2 (by decide))]

def tags : List PppoeTag := f.before ++ (f.ownTags ++ f.after)

def skb : PppoeSkb where
  mem := frameMem f.header (encodeTags f.tags).length (encodeTags f.tags ++ (f.pad ++ f.tailroom))
  len := tagsAt + (encodeTags f.tags).length + f.pad.length

end ClientFrame

structure Reply where
  dst : MacAddr
  src : MacAddr
  verType : UInt8
  code : UInt8
  sid : ℕ
  before : List PppoeTag
  relay : PppoeTag
  after : List PppoeTag
  pad : Bytes
  tailroom : Bytes
  discovery : code = 0x07 ∨ code = 0x65
  others : ∀ t ∈ before ++ after, t.type ≠ pttRelaySid
  fits : (encodeTags (before ++ relay :: after)).length < 65536

namespace Reply

variable (g : Reply)

/-- The header of the reply behind the destination, up to the length field. -/
def headerRest : Bytes :=
  g.src.toBytes ++ ([0x88, 0x63, g.verType, g.code] ++ Bytes.ofBe16 g.sid)

def tags : List PppoeTag := g.before ++ g.relay :: g.after

def skb : PppoeSkb where
  mem := frameMem (g.dst.toBytes ++ g.headerRest) (encodeTags g.tags).length
    (encodeTags g.tags ++ (g.pad ++ g.tailroom))
  len := tagsAt + (encodeTags g.tags).length + g.pad.length

end Reply

def Carries (skb : PppoeSkb) (header : Bytes) (ts : List PppoeTag) (padding : ℕ) : Prop :=
  (encodeTags ts).length < 65536 ∧ skb.len = tagsAt + (encodeTags ts).length + padding ∧
    ∃ rest, skb.mem = frameMem header (encodeTags ts).length (encodeTags ts ++ rest)

/-- **The round trip of a relay tag**: the insertion gives a well-formed frame that begins with a
relay tag, and a reply that echoes it comes to the client with the tags that the client would have
seen. -/
def RelayRoundTrip (f : ClientFrame) (stack : ℕ → UInt8) : Prop :=
  ∃ skb relay ts, nat25InsertPppoe f.skb stack = some skb ∧ relay.type = pttRelaySid ∧
    Carries skb f.header (relay :: ts) f.pad.length ∧
    ∀ g : Reply, g.relay = relay → ∃ skb', nat25LookupPppoe g.skb = some skb' ∧
      Carries skb' (f.src.toBytes ++ g.headerRest) (g.before ++ (f.ownTags ++ g.after)) g.pad.length

namespace ClientFrame

variable (f : ClientFrame)

/-- How many bytes are put before the tags: the length of the relay tag with its bytes swapped. -/
def inserted : ℕ := 256 * (8 + f.ownData.length) + 4

def garbage (stack : ℕ → UInt8) : Bytes :=
  (List.range (f.inserted - (12 + f.ownData.length))).map fun i =>
    stack (12 + f.ownData.length + i)

end ClientFrame

/-- **When the round trip succeeds**: the client has sent no empty relay tag, the tail room takes
the swapped length, and the stack completes the tags by chance. -/
structure Lucky (f : ClientFrame) (stack : ℕ → UInt8) : Prop where
  own : ∀ d, f.own = some d → d.1 ≠ []
  room : f.inserted ≤ f.tailroom.length + (encodeTags f.ownTags).length
  completes : ∃ ts, f.garbage stack ++ encodeTags (f.before ++ f.after) = encodeTags ts

/-! ## Insertion -/

section Insertion

variable {f : ClientFrame} {stack : ℕ → UInt8} {client d : Bytes}

theorem length_composeTag (hclient : client.length = 6) (d : Bytes) :
    (composeTag client d).length = 12 + d.length := by
  simp [composeTag, Bytes.ofBe16, hclient]
  omega

theorem le16_composeTag (client : Bytes) (hd : d.length ≤ 24) :
    (composeTag client d).le16 2 = 256 * (8 + d.length) := by
  have hhigh : (composeTag client d).u8 2 = UInt8.ofNat ((8 + d.length) / 256) := rfl
  have hlow : (composeTag client d).u8 3 = UInt8.ofNat (8 + d.length) := rfl
  rw [Bytes.le16, hhigh, hlow, UInt8.toNat_ofNat', UInt8.toNat_ofNat']
  omega

theorem length_toBytes (a : MacAddr) : a.toBytes.length = 6 := rfl

theorem length_header_clientFrame (f : ClientFrame) : f.header.length = 18 := rfl

theorem client_frameMem (f : ClientFrame) (length : ℕ) (rest : Bytes) :
    segment (frameMem f.header length rest) 6 6 = f.src.toBytes := by
  have hsplit : frameMem f.header length rest = f.dst.toBytes ++ (f.src.toBytes ++
      ([0x88, 0x63, f.verType, f.code, 0, 0] ++ (Bytes.ofBe16 length ++ rest))) := by
    simp [frameMem, ClientFrame.header]
  rw [hsplit]
  exact segment_append f.dst.toBytes f.src.toBytes _

def ClientFrame.composed (f : ClientFrame) : Bytes := composeTag f.src.toBytes f.ownData

theorem length_composed (f : ClientFrame) : f.composed.length = 12 + f.ownData.length :=
  length_composeTag (length_toBytes f.src) f.ownData

theorem dataLen_composed (f : ClientFrame) : f.composed.le16 2 + tagHdrLen = f.inserted := by
  rw [ClientFrame.composed, le16_composeTag _ f.ownData_le]
  rfl

theorem nat25InsertPppoe_skb (f : ClientFrame) (stack : ℕ → UInt8) : ∃ tail,
    tail.length = f.tailroom.length + (encodeTags f.ownTags).length ∧
    nat25InsertPppoe f.skb stack =
      nat25AddPppoeTag ⟨frameMem f.header (encodeTags (f.before ++ f.after)).length
        (encodeTags (f.before ++ f.after) ++ (f.pad ++ tail)),
        tagsAt + (encodeTags (f.before ++ f.after)).length + f.pad.length⟩ f.composed stack := by
  have hpre := length_header_clientFrame f
  have hfits := f.fits
  unfold nat25InsertPppoe
  cases hown : f.own with
  | none =>
    have hdata : f.ownData = [] := by rw [ClientFrame.ownData, hown]; rfl
    have htags : f.ownTags = [] := by rw [ClientFrame.ownTags, hown]; rfl
    have hall : f.tags = f.before ++ f.after := by rw [ClientFrame.tags, htags, List.nil_append]
    have hsearch : nat25FindPppoeTag f.skb.mem pttRelaySid = some none := by
      refine findPppoeTag_none (A := f.tags) hpre ?_ ?_ rfl
      · rw [hall]
        omega
      · rw [hall]
        exact f.others
    refine ⟨f.tailroom, by rw [htags]; rfl, ?_⟩
    rw [hsearch]
    dsimp only
    rw [ClientFrame.composed, hdata, ClientFrame.skb]
    dsimp only
    rw [client_frameMem, hall]
  | some d =>
    have hshort : d.1.length < 65536 := lt_of_le_of_lt d.2 (by decide)
    have hd := d.2
    have hdata : f.ownData = d.1 := by rw [ClientFrame.ownData, hown]; rfl
    have htags : f.ownTags = [relayTag d.1 hshort] := by rw [ClientFrame.ownTags, hown]; rfl
    have hall : f.tags = f.before ++ relayTag d.1 hshort :: f.after := by
      rw [ClientFrame.tags, htags]
      rfl
    have hsum : (encodeTags f.tags).length =
        (encodeTags (f.before ++ f.after)).length + (4 + d.1.length) := by
      rw [hall]
      simp [relayTag]
      omega
    have hboth : (encodeTags (f.before ++ f.after)).length =
        (encodeTags f.before).length + (encodeTags f.after).length := by simp
    have hmem : f.skb.mem = frameMem f.header (encodeTags f.tags).length
        (encodeTags f.before ++ ((relayTag d.1 hshort).bytes ++
          ((encodeTags f.after ++ f.pad) ++ f.tailroom))) := by
      rw [ClientFrame.skb, hall]
      simp
    have hsearch : nat25FindPppoeTag f.skb.mem pttRelaySid =
        some (some (tagsAt + (encodeTags f.before).length)) := by
      refine @findPppoeTag_some f.header (f.pad ++ f.tailroom) f.before f.after
        (relayTag d.1 hshort) f.skb.mem hpre ?_ ?_ ?_
      · rw [← hall]
        omega
      · exact fun t ht => f.others t (List.mem_append_left _ ht)
      · rw [← hall]
        rfl
    obtain ⟨-, holdLen⟩ := be16_tag hpre rfl hmem
    have holdData : segment f.skb.mem (tagsAt + (encodeTags f.before).length + 4) d.1.length =
        d.1 := by
      have hsplit : f.skb.mem = frameMem f.header (encodeTags f.tags).length
          ((encodeTags f.before ++ (Bytes.ofBe16 pttRelaySid ++ Bytes.ofBe16 d.1.length)) ++
            (d.1 ++ ((encodeTags f.after ++ f.pad) ++ f.tailroom))) := by
        rw [hmem]
        simp [PppoeTag.bytes, relayTag]
      rw [hsplit]
      refine segment_frameMem hpre ?_ rfl _
      rw [List.length_append]
      rfl
    have hbytes : tagHdrLen + d.1.length = (relayTag d.1 hshort).bytes.length :=
      (PppoeTag.length_bytes (relayTag d.1 hshort)).symm
    obtain ⟨tail, htail, hpull⟩ := @skbPullAndMerge_frameMem f.header (encodeTags f.before)
      (relayTag d.1 hshort).bytes (encodeTags f.tags).length
      (tagsAt + (encodeTags f.before).length) (tagHdrLen + d.1.length)
      (encodeTags f.after ++ f.pad) f.tailroom f.skb.len hpre rfl hbytes (by
        change tagsAt + (encodeTags f.tags).length + f.pad.length = _
        rw [hsum, hboth, ← hbytes, List.length_append]
        unfold tagHdrLen
        omega)
    rw [← hmem] at hpull
    refine ⟨tail, ?_, ?_⟩
    · rw [htail, htags]
      simp
    rw [hsearch]
    dsimp only
    have hlen : (relayTag d.1 hshort).data.length = d.1.length := rfl
    rw [holdLen, hlen, if_neg (by unfold tagHdrLen; omega), holdData]
    change (skbPullAndMerge f.skb _ _).bind _ = _
    rw [show f.skb = ⟨f.skb.mem, f.skb.len⟩ from rfl, hpull, Option.bind_some]
    dsimp only
    rw [phLength_frameMem hpre (by omega), setPhLength_frameMem hpre, ClientFrame.composed, hdata]
    have hclient : segment f.skb.mem 6 6 = f.src.toBytes := client_frameMem f _ _
    have hlength : (encodeTags f.tags).length - tagHdrLen - d.1.length =
        (encodeTags (f.before ++ f.after)).length := by
      rw [hsum]
      unfold tagHdrLen
      omega
    rw [hclient, hlength]
    congr 2
    · simp [frameMem]
    · rw [hboth, List.length_append]
      omega

end Insertion

def composedTag (client : MacAddr) (d : Bytes) (h : d.length ≤ 24) : PppoeTag where
  type := pttRelaySid
  data := Bytes.ofBe16 magicCode ++ (client.toBytes ++ d)
  typeLt := by decide
  short := by
    rw [List.length_append, List.length_append]
    change 2 + (6 + d.length) < 65536
    omega

section Lookup

variable {g : Reply} {client : MacAddr} {d : Bytes}

theorem length_composedTag (client : MacAddr) (h : d.length ≤ 24) :
    (composedTag client d h).data.length = 8 + d.length := by
  change (Bytes.ofBe16 magicCode ++ (client.toBytes ++ d)).length = 8 + d.length
  rw [List.length_append, List.length_append]
  change 2 + (6 + d.length) = 8 + d.length
  omega

theorem bytes_composedTag (client : MacAddr) (h : d.length ≤ 24) :
    (composedTag client d h).bytes = composeTag client.toBytes d := by
  rw [PppoeTag.bytes, length_composedTag]
  rfl

theorem nat25LookupPppoe_found {h : d.length ≤ 24} (hg : g.relay = composedTag client d h) :
    nat25LookupPppoe g.skb =
      let ptr := tagsAt + (encodeTags g.before).length
      let offset := if 8 < 8 + d.length then tagHdrLen else 0
      (skbPullAndMerge ⟨frameMem (client.toBytes ++ g.headerRest) (encodeTags g.tags).length
          (encodeTags g.tags ++ (g.pad ++ g.tailroom)), g.skb.len⟩
        (ptr + offset) (12 - offset)).map fun skb =>
          let mem := setPhLength skb.mem (phLength skb.mem - (12 - offset))
          { skb with
            mem :=
              if 0 < offset then mem.overwrite (ptr + 2) (Bytes.ofBe16 d.length) else mem } := by
  have hpre : (g.dst.toBytes ++ g.headerRest).length = 18 := rfl
  have hmem : g.skb.mem = frameMem (g.dst.toBytes ++ g.headerRest) (encodeTags g.tags).length
      (encodeTags g.before ++
        (g.relay.bytes ++ (encodeTags g.after ++ (g.pad ++ g.tailroom)))) := by
    rw [Reply.skb, Reply.tags]
    simp
  have hparts : g.skb.mem = frameMem (g.dst.toBytes ++ g.headerRest) (encodeTags g.tags).length
      ((encodeTags g.before ++ (Bytes.ofBe16 pttRelaySid ++ Bytes.ofBe16 (8 + d.length))) ++
        (Bytes.ofBe16 magicCode ++ (client.toBytes ++
          (d ++ (encodeTags g.after ++ (g.pad ++ g.tailroom)))))) := by
    rw [hmem, hg, bytes_composedTag]
    simp [composeTag]
  have hsearch : nat25FindPppoeTag g.skb.mem pttRelaySid =
      some (some (tagsAt + (encodeTags g.before).length)) := by
    have htype : g.relay.type = pttRelaySid := by rw [hg]; rfl
    have hfound := @findPppoeTag_some (g.dst.toBytes ++ g.headerRest) (g.pad ++ g.tailroom)
      g.before g.after g.relay g.skb.mem hpre g.fits
      (fun t ht => by rw [htype]; exact g.others t (List.mem_append_left _ ht)) rfl
    rwa [htype] at hfound
  obtain ⟨htype, hlen⟩ := be16_tag hpre rfl hmem
  rw [hg] at htype hlen
  rw [length_composedTag] at hlen
  have hptr : (encodeTags g.before ++
      (Bytes.ofBe16 pttRelaySid ++ Bytes.ofBe16 (8 + d.length))).length =
      (encodeTags g.before).length + 4 := List.length_append
  have hmagic : g.skb.mem.be16 (tagsAt + (encodeTags g.before).length + 4) = magicCode := by
    rw [hparts, frameMem_append]
    refine be16_ofBe16_of_eq ?_ (by decide)
    rw [length_header hpre, hptr]
    omega
  have hclient : segment g.skb.mem (tagsAt + (encodeTags g.before).length + 6) 6 =
      client.toBytes := by
    rw [hparts, ← List.append_assoc _ (Bytes.ofBe16 magicCode)]
    refine segment_frameMem hpre ?_ rfl _
    rw [List.length_append, hptr]
    rfl
  have hdst : g.skb.mem.overwrite 0 client.toBytes =
      frameMem (client.toBytes ++ g.headerRest) (encodeTags g.tags).length
        (encodeTags g.tags ++ (g.pad ++ g.tailroom)) := rfl
  unfold nat25LookupPppoe
  rw [hsearch]
  dsimp only
  rw [htype, hlen, if_neg (by rw [not_or]; exact ⟨not_not.mpr rfl, by omega⟩), hmagic,
    if_neg (not_not.mpr rfl), hclient, hdst, Nat.add_sub_cancel_left]

/-- **What a lookup makes of a reply** to a client without data of its own. -/
theorem nat25LookupPppoe_nil (hg : g.relay = composedTag client [] (Nat.zero_le _)) :
    ∃ skb', nat25LookupPppoe g.skb = some skb' ∧
      Carries skb' (client.toBytes ++ g.headerRest) (g.before ++ g.after) g.pad.length := by
  have hpre : (client.toBytes ++ g.headerRest).length = 18 := rfl
  have hbytes : (composedTag client [] (Nat.zero_le _)).bytes.length = 12 := by
    rw [bytes_composedTag]
    rfl
  have hsum : (encodeTags g.tags).length = (encodeTags (g.before ++ g.after)).length + 12 := by
    rw [Reply.tags, hg]
    simp [hbytes]
    omega
  have hfits := g.fits
  change (encodeTags g.tags).length < 65536 at hfits
  have hsplit : encodeTags g.tags ++ (g.pad ++ g.tailroom) = encodeTags g.before ++
      ((composedTag client [] (Nat.zero_le _)).bytes ++
        ((encodeTags g.after ++ g.pad) ++ g.tailroom)) := by
    rw [Reply.tags, hg]
    simp
  obtain ⟨tail, -, hpull⟩ := @skbPullAndMerge_frameMem (client.toBytes ++ g.headerRest)
    (encodeTags g.before) (composedTag client [] (Nat.zero_le _)).bytes (encodeTags g.tags).length
    (tagsAt + (encodeTags g.before).length) 12 (encodeTags g.after ++ g.pad) g.tailroom g.skb.len
    hpre rfl hbytes.symm (by
      change tagsAt + (encodeTags g.tags).length + g.pad.length = _
      rw [hsum, hbytes]
      simp
      omega)
  rw [nat25LookupPppoe_found hg]
  simp only [List.length_nil, Nat.add_zero, lt_irrefl, if_false, Nat.sub_zero]
  rw [hsplit, hpull, Option.map_some]
  refine ⟨_, rfl, ?_, ?_, g.pad ++ tail, ?_⟩
  · omega
  · simp
    omega
  · dsimp only
    rw [phLength_frameMem hpre hfits, setPhLength_frameMem hpre, hsum, Nat.add_sub_cancel]
    simp [frameMem]

/-- **What a lookup makes of a reply** to a client with data of its own. -/
theorem nat25LookupPppoe_cons {h : d.length ≤ 24} (hne : d ≠ [])
    (hg : g.relay = composedTag client d h) :
    ∃ skb', nat25LookupPppoe g.skb = some skb' ∧
      Carries skb' (client.toBytes ++ g.headerRest)
        (g.before ++ relayTag d (lt_of_le_of_lt h (by decide)) :: g.after) g.pad.length := by
  have hpre : (client.toBytes ++ g.headerRest).length = 18 := rfl
  have hpos : 0 < d.length := List.length_pos_iff.mpr hne
  have hshort : d.length < 65536 := lt_of_le_of_lt h (by decide)
  have hsum : (encodeTags g.tags).length =
      (encodeTags (g.before ++ relayTag d hshort :: g.after)).length + 8 := by
    rw [Reply.tags, hg]
    simp [length_composedTag, relayTag]
    omega
  have hfits := g.fits
  change (encodeTags g.tags).length < 65536 at hfits
  have hmagic : (Bytes.ofBe16 magicCode ++ client.toBytes).length = 8 := rfl
  have hsplit : encodeTags g.tags ++ (g.pad ++ g.tailroom) =
      (encodeTags g.before ++ (Bytes.ofBe16 pttRelaySid ++ Bytes.ofBe16 (8 + d.length))) ++
        ((Bytes.ofBe16 magicCode ++ client.toBytes) ++
          ((d ++ (encodeTags g.after ++ g.pad)) ++ g.tailroom)) := by
    rw [Reply.tags, hg, encodeTags_append, encodeTags_cons, bytes_composedTag]
    simp [composeTag]
  obtain ⟨tail, -, hpull⟩ := @skbPullAndMerge_frameMem (client.toBytes ++ g.headerRest)
    (encodeTags g.before ++ (Bytes.ofBe16 pttRelaySid ++ Bytes.ofBe16 (8 + d.length)))
    (Bytes.ofBe16 magicCode ++ client.toBytes) (encodeTags g.tags).length
    (tagsAt + (encodeTags g.before).length + 4) 8 (d ++ (encodeTags g.after ++ g.pad)) g.tailroom
    g.skb.len hpre (by rw [List.length_append]; rfl) hmagic.symm (by
      change tagsAt + (encodeTags g.tags).length + g.pad.length = _
      rw [hsum, hmagic]
      simp [relayTag, Bytes.ofBe16]
      omega)
  rw [nat25LookupPppoe_found hg]
  have hoffset : (if 8 < 8 + d.length then tagHdrLen else 0) = 4 := if_pos (by omega)
  dsimp only
  rw [hoffset, hsplit, hpull, Option.map_some]
  refine ⟨_, rfl, ?_, ?_, g.pad ++ tail, ?_⟩
  · omega
  · simp [relayTag, Bytes.ofBe16]
    omega
  · dsimp only
    rw [phLength_frameMem hpre hfits, setPhLength_frameMem hpre, if_pos (by decide), hsum,
      Nat.add_sub_cancel]
    have hparts : (encodeTags g.before ++
        (Bytes.ofBe16 pttRelaySid ++ Bytes.ofBe16 (8 + d.length))) ++
          ((d ++ (encodeTags g.after ++ g.pad)) ++ tail) =
        (encodeTags g.before ++ Bytes.ofBe16 pttRelaySid) ++
          (Bytes.ofBe16 (8 + d.length) ++ (d ++ (encodeTags g.after ++ (g.pad ++ tail)))) := by
      simp
    rw [hparts, overwrite_frameMem hpre (by rw [List.length_append]; rfl)]
    simp [frameMem, PppoeTag.bytes, relayTag, Bytes.ofBe16]

end Lookup

/-! ## The round trip -/

section RoundTrip

variable {f : ClientFrame} {stack : ℕ → UInt8}

theorem frameMem_inj {pre a b : Bytes} {m n : ℕ} (hpre : pre.length = 18) (hm : m < 65536)
    (hn : n < 65536) (h : frameMem pre m a = frameMem pre n b) : m = n ∧ a = b := by
  have hlength : m = n := by
    have hfield := congrArg phLength h
    rwa [phLength_frameMem hpre hm, phLength_frameMem hpre hn] at hfield
  subst hlength
  exact ⟨rfl, List.append_cancel_left (List.append_cancel_left h)⟩

theorem bytes_inj {t u : PppoeTag} {a b : Bytes} (h : t.bytes ++ a = u.bytes ++ b) :
    t = u ∧ a = b := by
  have hread : ∀ (t : PppoeTag) (a : Bytes), (t.bytes ++ a).be16 0 = t.type ∧
      (t.bytes ++ a).be16 2 = t.data.length := by
    intro t a
    rw [PppoeTag.bytes, List.append_assoc, List.append_assoc]
    exact ⟨be16_ofBe16_of_eq (p := []) rfl t.typeLt, be16_ofBe16_of_eq (p := Bytes.ofBe16 t.type)
      rfl t.short⟩
  have htype : t.type = u.type := by rw [← (hread t a).1, h, (hread u b).1]
  have hlength : t.data.length = u.data.length := by rw [← (hread t a).2, h, (hread u b).2]
  rw [PppoeTag.bytes, PppoeTag.bytes, htype, hlength] at h
  simp only [List.append_assoc] at h
  obtain ⟨hdata, hrest⟩ := List.append_inj
    (List.append_cancel_left (List.append_cancel_left h)) hlength
  refine ⟨?_, hrest⟩
  cases t
  cases u
  cases htype
  cases hdata
  rfl

theorem composed_eq_bytes (f : ClientFrame) :
    f.composed = (composedTag f.src f.ownData f.ownData_le).bytes :=
  (bytes_composedTag f.src f.ownData_le).symm

theorem length_tags_le (f : ClientFrame) :
    (encodeTags (f.before ++ f.after)).length + f.inserted < 65536 := by
  have hfits := f.fits
  have hown := f.ownData_le
  unfold ClientFrame.inserted
  omega

theorem nat25InsertPppoe_none
    (h : f.tailroom.length + (encodeTags f.ownTags).length < f.inserted) :
    nat25InsertPppoe f.skb stack = none := by
  obtain ⟨tail, htail, hinsert⟩ := nat25InsertPppoe_skb f stack
  rw [hinsert]
  refine nat25AddPppoeTag_none (length_header_clientFrame f) ?_
  rw [List.length_append, dataLen_composed]
  omega

/-- **What an insertion gives**: the relay tag, what the stack holds, and the other tags. -/
theorem nat25InsertPppoe_some
    (h : f.inserted ≤ f.tailroom.length + (encodeTags f.ownTags).length) :
    ∃ skb rest, nat25InsertPppoe f.skb stack = some skb ∧
      skb.len = tagsAt + ((encodeTags (f.before ++ f.after)).length + f.inserted) + f.pad.length ∧
      skb.mem = frameMem f.header ((encodeTags (f.before ++ f.after)).length + f.inserted)
        ((f.composed ++ f.garbage stack) ++ (encodeTags (f.before ++ f.after) ++ rest)) := by
  obtain ⟨tail, htail, hinsert⟩ := nat25InsertPppoe_skb f stack
  have hdataLen := dataLen_composed f
  have hcomposed := length_composed f
  have hlt := length_tags_le f
  obtain ⟨rest, hadd⟩ := @nat25AddPppoeTag_some f.header
    (encodeTags (f.before ++ f.after)) (f.pad ++ tail) f.composed f.pad.length stack
    (length_header_clientFrame f) (by omega)
    (by rw [hdataLen, hcomposed]; unfold ClientFrame.inserted; omega)
    (by rw [List.length_append]; omega) (by rw [List.length_append, hdataLen]; omega)
  rw [hdataLen, hcomposed] at hadd
  exact ⟨_, rest, hinsert.trans hadd, by dsimp only; omega, rfl⟩

theorem length_garbage (f : ClientFrame) (stack : ℕ → UInt8) :
    (f.composed ++ f.garbage stack).length = f.inserted := by
  rw [List.length_append, length_composed, ClientFrame.garbage, List.length_map, List.length_range]
  unfold ClientFrame.inserted
  omega

/-- **What the frame holds if it is well formed.** -/
theorem insert_decode {skb : PppoeSkb} {relay : PppoeTag} {ts : List PppoeTag}
    (hinsert : nat25InsertPppoe f.skb stack = some skb)
    (hcarries : Carries skb f.header (relay :: ts) f.pad.length) :
    f.inserted ≤ f.tailroom.length + (encodeTags f.ownTags).length ∧
      relay = composedTag f.src f.ownData f.ownData_le ∧
      f.garbage stack ++ encodeTags (f.before ++ f.after) = encodeTags ts := by
  have hroom : f.inserted ≤ f.tailroom.length + (encodeTags f.ownTags).length := by
    by_contra hsmall
    rw [nat25InsertPppoe_none (Nat.lt_of_not_le hsmall)] at hinsert
    cases hinsert
  obtain ⟨skb', rest', hinsert', -, hmem'⟩ := @nat25InsertPppoe_some f stack hroom
  obtain rfl := Option.some.inj (hinsert.symm.trans hinsert')
  obtain ⟨hlt, -, rest, hmem⟩ := hcarries
  obtain ⟨hlength, hbody⟩ := frameMem_inj (length_header_clientFrame f) hlt (length_tags_le f)
    (hmem.symm.trans hmem')
  have hbody' : encodeTags (relay :: ts) ++ rest =
      ((f.composed ++ f.garbage stack) ++ encodeTags (f.before ++ f.after)) ++ rest' := by
    rw [hbody]
    simp
  have hboth : (encodeTags (relay :: ts)).length =
      ((f.composed ++ f.garbage stack) ++ encodeTags (f.before ++ f.after)).length := by
    rw [List.length_append, length_garbage, hlength]
    omega
  have htags := (List.append_inj hbody' hboth).1
  rw [encodeTags_cons, composed_eq_bytes, List.append_assoc] at htags
  obtain ⟨hrelay, hts⟩ := bytes_inj htags
  exact ⟨hroom, hrelay, hts.symm⟩

def Reply.bare (client : MacAddr) (relay : PppoeTag) (h : 4 + relay.data.length < 65536) :
    Reply where
  dst := client
  src := client
  verType := 0x11
  code := 0x07
  sid := 0
  before := []
  relay := relay
  after := []
  pad := []
  tailroom := []
  discovery := .inl rfl
  others := fun t ht => absurd ht List.not_mem_nil
  fits := by simpa using h

end RoundTrip

/-- **The round trip of a relay tag** succeeds exactly if the client has sent no empty relay tag,
the tail room takes the length of the tag with its bytes swapped, and what the stack holds behind
the tag completes the tags by chance. -/
theorem relayRoundTrip_iff (f : ClientFrame) (stack : ℕ → UInt8) :
    RelayRoundTrip f stack ↔ Lucky f stack := by
  constructor
  · rintro ⟨skb, relay, ts, hinsert, -, hcarries, hreply⟩
    obtain ⟨hroom, hrelay, hts⟩ := insert_decode hinsert hcarries
    refine ⟨fun d hown hempty => ?_, hroom, ⟨ts, hts⟩⟩
    -- the lookup takes an empty relay tag of the client away
    have hdata : f.ownData = [] := by
      rw [ClientFrame.ownData, hown]
      exact hempty
    have hnil : relay = composedTag f.src [] (Nat.zero_le _) := by
      rw [hrelay]
      congr 1
    have hlen : relay.data.length = 8 := by
      rw [hnil, length_composedTag]
      rfl
    obtain ⟨skb', hlookup, hlt, -, rest, hmem⟩ :=
      hreply (.bare f.src relay (by rw [hlen]; decide)) rfl
    obtain ⟨skb'', hlookup', hlt', -, rest', hmem'⟩ :=
      @nat25LookupPppoe_nil (.bare f.src relay (by rw [hlen]; decide)) f.src hnil
    obtain rfl := Option.some.inj (hlookup.symm.trans hlookup')
    obtain ⟨hlength, -⟩ := frameMem_inj rfl hlt hlt' (hmem.symm.trans hmem')
    have htags : f.ownTags = [relayTag d.1 (lt_of_le_of_lt d.2 (by decide))] := by
      rw [ClientFrame.ownTags, hown]
      rfl
    rw [htags] at hlength
    simp [Reply.bare] at hlength
  · rintro ⟨hown, hroom, ts, hts⟩
    obtain ⟨skb, rest, hinsert, hlen, hmem⟩ := @nat25InsertPppoe_some f stack hroom
    have hbytes : encodeTags (composedTag f.src f.ownData f.ownData_le :: ts) =
        (f.composed ++ f.garbage stack) ++ encodeTags (f.before ++ f.after) := by
      rw [encodeTags_cons, ← hts, composed_eq_bytes, List.append_assoc]
    have hsum : (encodeTags (composedTag f.src f.ownData f.ownData_le :: ts)).length =
        (encodeTags (f.before ++ f.after)).length + f.inserted := by
      rw [hbytes, List.length_append, length_garbage]
      omega
    refine ⟨skb, composedTag f.src f.ownData f.ownData_le, ts, hinsert, rfl, ⟨?_, ?_, rest, ?_⟩, ?_⟩
    · rw [hsum]
      exact length_tags_le f
    · rw [hsum]
      exact hlen
    · rw [hsum, hbytes, List.append_assoc]
      exact hmem
    intro g hg
    cases hcase : f.own with
    | none =>
      have hdata : f.ownData = [] := by rw [ClientFrame.ownData, hcase]; rfl
      have htags : f.ownTags = [] := by rw [ClientFrame.ownTags, hcase]; rfl
      rw [htags, List.nil_append]
      refine nat25LookupPppoe_nil (hg.trans ?_)
      congr 1
    | some d =>
      have hdata : f.ownData = d.1 := by rw [ClientFrame.ownData, hcase]; rfl
      have htags : f.ownTags = [relayTag d.1 (lt_of_le_of_lt d.2 (by decide))] := by
        rw [ClientFrame.ownTags, hcase]
        rfl
      rw [htags]
      have hne := hown d hcase
      refine @nat25LookupPppoe_cons g f.src d.1 d.2 hne (hg.trans ?_)
      congr 1

def padi : ClientFrame where
  dst := ⟨0xff, 0xff, 0xff, 0xff, 0xff, 0xff⟩
  src := ⟨2, 0, 0, 0, 0, 1⟩
  verType := 0x11
  code := 0x09
  before := []
  own := none
  after := []
  pad := []
  tailroom := [0, 0, 0, 0, 0, 0, 0, 0, 0, 0, 0, 0]
  discovery := .inl rfl
  others := fun t ht => absurd ht List.not_mem_nil
  fits := by decide
  room := by decide

/-- The room is not enough for 2052 bytes. -/
theorem not_relayRoundTrip : ¬∀ f stack, RelayRoundTrip f stack := by
  intro h
  obtain ⟨skb, relay, ts, hinsert, -⟩ := h padi fun _ => 0
  have hnone : nat25InsertPppoe padi.skb (fun _ => 0) = none :=
    nat25InsertPppoe_none (by decide)
  rw [hnone] at hinsert
  cases hinsert

end Rtl88x2eu.Nat25
