import Rtl88x2eu.Ie.Edit
import Rtl88x2eu.Nat25.Checksum

/-!
# Tags of PPPoE discovery frames

`nat25_db_handle` of `rtw_br_ext.c`, for the PPPoE discovery of a bridged client with `addPPPoETag`
set. `NAT25_INSERT` puts a relay tag with the address of the client before the other tags, and the
data of a relay tag that the client has sent behind it; `NAT25_LOOKUP` takes the address out again.

`tag->tag_len` is a big-endian field, and `__nat25_add_pppoe_tag` takes it as it stands. The byte
order is little-endian here.

## Main definitions

* `PppoeTag`, `encodeTags`: tags, and the bytes of a list of them
* `nat25FindPppoeTag`, `nat25AddPppoeTag`, `skbPullAndMerge`: `__nat25_find_pppoe_tag` and so on
* `nat25InsertPppoe`, `nat25LookupPppoe`: the two branches
* `frameMem`

## Main results

* `findPppoeTag_some`, `findPppoeTag_none`: what the search finds in a list of tags
* `skbPullAndMerge_frameMem`
* `nat25AddPppoeTag_some`: what is put before the tags
-/

namespace Rtl88x2eu.Nat25

open Walk Ie

/-! ## Frames -/

/-- A tag of a PPPoE discovery frame. -/
structure PppoeTag where
  type : ℕ
  data : Bytes
  typeLt : type < 65536
  short : data.length < 65536

def tagHdrLen : ℕ := 4

def pttRelaySid : ℕ := 0x0110

def magicCode : ℕ := 0x8186

namespace PppoeTag

def bytes (t : PppoeTag) : Bytes := Bytes.ofBe16 t.type ++ (Bytes.ofBe16 t.data.length ++ t.data)

@[simp] theorem length_bytes (t : PppoeTag) : t.bytes.length = 4 + t.data.length := by
  simp [bytes, Bytes.ofBe16]
  omega

end PppoeTag

def encodeTags (ts : List PppoeTag) : Bytes := ts.flatMap PppoeTag.bytes

@[simp] theorem encodeTags_nil : encodeTags [] = [] := rfl

@[simp] theorem encodeTags_cons (t : PppoeTag) (ts : List PppoeTag) :
    encodeTags (t :: ts) = t.bytes ++ encodeTags ts := List.flatMap_cons

@[simp] theorem encodeTags_append (A B : List PppoeTag) :
    encodeTags (A ++ B) = encodeTags A ++ encodeTags B := List.flatMap_append

/-- A `struct sk_buff`: the memory from `skb->data` on, and how much of it is the frame. -/
structure PppoeSkb where
  mem : Bytes
  len : ℕ

def tagsAt : ℕ := 20

/-- The memory of a frame. -/
def frameMem (pre : Bytes) (length : ℕ) (rest : Bytes) : Bytes :=
  pre ++ (Bytes.ofBe16 length ++ rest)

def phLength (mem : Bytes) : ℕ := mem.be16 18

def setPhLength (mem : Bytes) (length : ℕ) : Bytes := mem.overwrite 18 (Bytes.ofBe16 length)

def tagNext (mem : Bytes) (cur : ℕ) : ℕ := cur + (tagHdrLen + mem.be16 (cur + 2))

/-- A pass of the loop of `__nat25_find_pppoe_tag`. -/
def tagBody (mem : Bytes) (type : ℕ) : ℕ → ℕ ⊕ Option ℕ :=
  searchBody (fun cur => cur - tagsAt < phLength mem) (fun cur => mem.be16 cur = type)
    (tagNext mem)

/-- `__nat25_find_pppoe_tag`; `none` if the loop does not end. -/
def nat25FindPppoeTag (mem : Bytes) (type : ℕ) : Option (Option ℕ) :=
  Loop.iterate (tagBody mem type) (phLength mem + 1) tagsAt

/-- `skb_pull_and_merge`; `none` is `-1`. -/
def skbPullAndMerge (skb : PppoeSkb) (src len : ℕ) : Option PppoeSkb :=
  if skb.len < src + len ∨ skb.len < len then none
  else some
    { mem := skb.mem.overwrite src (segment skb.mem (src + len) (skb.len - (src + len)))
      len := skb.len - len }

/-- `__nat25_add_pppoe_tag`; `none` is `-1`. The tag is followed by what the stack holds there. -/
def nat25AddPppoeTag (skb : PppoeSkb) (tag : Bytes) (stack : ℕ → UInt8) : Option PppoeSkb :=
  -- the length field as the processor loads it
  let dataLen := tag.le16 2 + tagHdrLen
  if skb.mem.length - skb.len < dataLen then none
  else
    let length := phLength skb.mem
    let mem := skb.mem.overwrite (tagsAt + dataLen) (segment skb.mem tagsAt length)
    let mem := setPhLength mem (length + dataLen)
    some
      { mem := mem.overwrite tagsAt
          (tag ++ (List.range (dataLen - tag.length)).map fun i => stack (tag.length + i))
        len := skb.len + dataLen }

def composeTag (client oldData : Bytes) : Bytes :=
  Bytes.ofBe16 pttRelaySid ++ (Bytes.ofBe16 (8 + oldData.length) ++
    (Bytes.ofBe16 magicCode ++ (client ++ oldData)))

/-- `NAT25_INSERT` of a PADI or PADR with `addPPPoETag` set; `none` is `-1`. -/
def nat25InsertPppoe (skb : PppoeSkb) (stack : ℕ → UInt8) : Option PppoeSkb :=
  let client := segment skb.mem 6 6
  match nat25FindPppoeTag skb.mem pttRelaySid with
  | none => none
  | some none => nat25AddPppoeTag skb (composeTag client []) stack
  | some (some old) =>
    let oldLen := skb.mem.be16 (old + 2)
    -- `sizeof(tag_buf)`
    if 40 < oldLen + tagHdrLen + 2 + 6 then none
    else
      let oldData := segment skb.mem (old + 4) oldLen
      (skbPullAndMerge skb old (tagHdrLen + oldLen)).bind fun skb =>
        let mem := setPhLength skb.mem (phLength skb.mem - tagHdrLen - oldLen)
        nat25AddPppoeTag { skb with mem } (composeTag client oldData) stack

/-- `NAT25_LOOKUP` of a PADO or PADS with `addPPPoETag` set; `none` is `-1`. -/
def nat25LookupPppoe (skb : PppoeSkb) : Option PppoeSkb :=
  match nat25FindPppoeTag skb.mem pttRelaySid with
  | none => none
  | some none => none
  | some (some ptr) =>
    let tagType := skb.mem.be16 ptr
    let tagLen := skb.mem.be16 (ptr + 2)
    if tagType ≠ pttRelaySid ∨ tagLen < 8 then none
    else if skb.mem.be16 (ptr + 4) ≠ magicCode then none
    else
      let mem := skb.mem.overwrite 0 (segment skb.mem (ptr + 6) 6)
      let offset := if 8 < tagLen then tagHdrLen else 0
      (skbPullAndMerge { skb with mem } (ptr + offset) (12 - offset)).map fun skb =>
        let mem := setPhLength skb.mem (phLength skb.mem - (12 - offset))
        { skb with
          mem := if 0 < offset then mem.overwrite (ptr + 2) (Bytes.ofBe16 (tagLen - 8)) else mem }

/-! ## The memory of a frame -/

section Memory

variable {pre a b r : Bytes} {length length' i n type : ℕ} {A B : List PppoeTag} {t : PppoeTag}

theorem be16_ofBe16 (p r : Bytes) {v : ℕ} (hv : v < 65536) :
    (p ++ (Bytes.ofBe16 v ++ r)).be16 p.length = v := by
  have hhigh : (p ++ (Bytes.ofBe16 v ++ r)).u8 p.length = UInt8.ofNat (v / 256) :=
    u8_append_right p _ 0
  have hlow : (p ++ (Bytes.ofBe16 v ++ r)).u8 (p.length + 1) = UInt8.ofNat v :=
    u8_append_right p _ 1
  rw [Bytes.be16, hhigh, hlow, UInt8.toNat_ofNat', UInt8.toNat_ofNat']
  omega

theorem be16_ofBe16_of_eq {p r : Bytes} {v : ℕ} (hi : i = p.length) (hv : v < 65536) :
    (p ++ (Bytes.ofBe16 v ++ r)).be16 i = v := by
  rw [hi, be16_ofBe16 p r hv]

theorem phLength_frameMem (hpre : pre.length = 18) (hlt : length < 65536) :
    phLength (frameMem pre length r) = length :=
  be16_ofBe16_of_eq hpre.symm hlt

theorem setPhLength_frameMem (hpre : pre.length = 18) :
    setPhLength (frameMem pre length r) length' = frameMem pre length' r := by
  unfold setPhLength frameMem
  rw [overwrite_append_of_eq hpre.symm]
  rfl

theorem frameMem_append (pre : Bytes) (length : ℕ) (a b : Bytes) :
    frameMem pre length (a ++ b) = (pre ++ (Bytes.ofBe16 length ++ a)) ++ b := by
  simp [frameMem]

theorem length_header (hpre : pre.length = 18) (length : ℕ) (a : Bytes) :
    (pre ++ (Bytes.ofBe16 length ++ a)).length = tagsAt + a.length := by
  simp [Bytes.ofBe16, hpre, tagsAt]
  omega

theorem overwrite_frameMem (hpre : pre.length = 18) (hi : i = tagsAt + a.length) (b q : Bytes) :
    (frameMem pre length (a ++ b)).overwrite i q =
      frameMem pre length (a ++ (q ++ b.drop q.length)) := by
  rw [frameMem_append, overwrite_append_of_eq (hi.trans (length_header hpre length a).symm),
    ← frameMem_append]

theorem segment_append (p b r : Bytes) : segment (p ++ (b ++ r)) p.length b.length = b := by
  simp [segment]

theorem segment_frameMem (hpre : pre.length = 18) (hi : i = tagsAt + a.length)
    (hn : n = b.length) (r : Bytes) : segment (frameMem pre length (a ++ (b ++ r))) i n = b := by
  rw [frameMem_append, hi, hn, ← length_header hpre length a, segment_append]

theorem be16_tag {mem : Bytes} (hpre : pre.length = 18) (hi : i = tagsAt + a.length)
    (hmem : mem = frameMem pre length (a ++ (t.bytes ++ r))) :
    mem.be16 i = t.type ∧ mem.be16 (i + 2) = t.data.length := by
  have hlen := length_header hpre length a
  have htype : mem = (pre ++ (Bytes.ofBe16 length ++ a)) ++
      (Bytes.ofBe16 t.type ++ (Bytes.ofBe16 t.data.length ++ (t.data ++ r))) := by
    rw [hmem]
    simp [frameMem, PppoeTag.bytes]
  have hdata : mem = ((pre ++ (Bytes.ofBe16 length ++ a)) ++ Bytes.ofBe16 t.type) ++
      (Bytes.ofBe16 t.data.length ++ (t.data ++ r)) := by
    rw [htype]
    simp
  constructor
  · rw [htype]
    exact be16_ofBe16_of_eq (hi.trans hlen.symm) t.typeLt
  · rw [hdata]
    refine be16_ofBe16_of_eq ?_ t.short
    rw [List.length_append, hlen, hi]
    rfl

theorem reaches_tags {mem : Bytes} (hpre : pre.length = 18) (hlen : length < 65536)
    (hA : ∀ t ∈ A, t.type ≠ type) (hi : i = tagsAt + a.length)
    (hmem : mem = frameMem pre length (a ++ (encodeTags A ++ r)))
    (hn : a.length + (encodeTags A).length ≤ length) :
    Loop.Reaches (tagBody mem type) i (i + (encodeTags A).length) := by
  induction A generalizing a i with
  | nil => exact .refl _
  | cons t A ih =>
    have htail : mem = frameMem pre length ((a ++ t.bytes) ++ (encodeTags A ++ r)) := by
      rw [hmem]
      simp
    have hhead : mem = frameMem pre length (a ++ (t.bytes ++ (encodeTags A ++ r))) := by
      rw [hmem]
      simp
    obtain ⟨htype, hdata⟩ := be16_tag hpre hi hhead
    have hbytes : (a ++ t.bytes).length = a.length + (4 + t.data.length) := by
      rw [List.length_append, PppoeTag.length_bytes]
    have hsum : (encodeTags (t :: A)).length = 4 + t.data.length + (encodeTags A).length := by
      rw [encodeTags_cons, List.length_append, PppoeTag.length_bytes]
    have hgo : i - tagsAt < phLength mem := by
      rw [hhead, phLength_frameMem hpre hlen]
      omega
    have hrest := ih (fun u hu => hA u (List.mem_cons_of_mem t hu))
      (show i + (4 + t.data.length) = tagsAt + (a ++ t.bytes).length by omega) htail (by omega)
    rw [hsum, ← add_assoc]
    refine .step (searchBody_eq_inl.mpr ⟨⟨decide_eq_true hgo, decide_eq_false ?_⟩, ?_⟩) hrest
    · rw [htype]
      exact hA t List.mem_cons_self
    · rw [tagNext, hdata]
      rfl

theorem lt_tagNext (mem : Bytes) (cur : ℕ) : cur < tagNext mem cur := by
  unfold tagNext tagHdrLen
  omega

theorem isSome_findPppoeTag (mem : Bytes) (type : ℕ) : (nat25FindPppoeTag mem type).isSome := by
  refine @isSome_search (tagNext mem) tagsAt _ _ _ (tagsAt + phLength mem) (lt_tagNext mem)
    (fun cur hcur => ?_) (by omega)
  have hlt : cur - tagsAt < phLength mem := of_decide_eq_true hcur
  omega

/-- **The first tag of the type is found.** -/
theorem findPppoeTag_some {mem : Bytes} (hpre : pre.length = 18)
    (hlen : (encodeTags (A ++ t :: B)).length < 65536) (hA : ∀ u ∈ A, u.type ≠ t.type)
    (hmem : mem = frameMem pre (encodeTags (A ++ t :: B)).length (encodeTags (A ++ t :: B) ++ r)) :
    nat25FindPppoeTag mem t.type = some (some (tagsAt + (encodeTags A).length)) := by
  have hsplit : mem = frameMem pre (encodeTags (A ++ t :: B)).length
      ([] ++ (encodeTags A ++ (t.bytes ++ (encodeTags B ++ r)))) := by
    rw [hmem]
    simp
  have hsum : (encodeTags (A ++ t :: B)).length =
      (encodeTags A).length + (4 + t.data.length + (encodeTags B).length) := by
    simp
  obtain ⟨htype, -⟩ := @be16_tag pre (encodeTags A) (encodeTags B ++ r) _
    (tagsAt + (encodeTags A).length) t mem hpre rfl (by rw [hsplit, List.nil_append])
  refine search_of_reaches (isSome_findPppoeTag mem t.type)
    (reaches_tags hpre hlen hA rfl hsplit ?_) (decide_eq_true ?_) (decide_eq_true htype)
  · rw [hsum, List.length_nil]
    omega
  · rw [hsplit, phLength_frameMem hpre hlen]
    omega

theorem findPppoeTag_none {mem : Bytes} (hpre : pre.length = 18)
    (hlen : (encodeTags A).length < 65536) (hA : ∀ u ∈ A, u.type ≠ type)
    (hmem : mem = frameMem pre (encodeTags A).length (encodeTags A ++ r)) :
    nat25FindPppoeTag mem type = some none := by
  refine Loop.iterate_of_reaches (isSome_findPppoeTag mem type)
    (reaches_tags hpre hlen hA rfl (hmem.trans (by rw [List.nil_append])) (by simp)) ?_
  unfold tagBody searchBody
  rw [if_neg]
  rw [decide_eq_true_iff, hmem, phLength_frameMem hpre hlen]
  simp

theorem length_frameMem (hpre : pre.length = 18) (length : ℕ) (r : Bytes) :
    (frameMem pre length r).length = tagsAt + r.length := length_header hpre length r

/-- A part of the frame is taken out. -/
theorem skbPullAndMerge_frameMem {c tail : Bytes} {len : ℕ} (hpre : pre.length = 18)
    (hi : i = tagsAt + a.length) (hn : n = b.length)
    (hlen : len = tagsAt + (a.length + (b.length + c.length))) :
    ∃ tail', tail'.length = tail.length + b.length ∧
      skbPullAndMerge ⟨frameMem pre length (a ++ (b ++ (c ++ tail))), len⟩ i n =
        some ⟨frameMem pre length (a ++ (c ++ tail')), tagsAt + (a.length + c.length)⟩ := by
  refine ⟨(b ++ (c ++ tail)).drop c.length, ?_, ?_⟩
  · simp only [List.length_drop, List.length_append]
    omega
  have hsegment : segment (frameMem pre length (a ++ (b ++ (c ++ tail)))) (i + n) (len - (i + n)) =
      c := by
    rw [← List.append_assoc a b]
    refine segment_frameMem hpre ?_ (by omega) tail
    rw [List.length_append, hi, hn, add_assoc]
  unfold skbPullAndMerge
  dsimp only
  rw [if_neg (by omega), hsegment, overwrite_frameMem hpre hi]
  refine congrArg some (congrArg (PppoeSkb.mk _) ?_)
  omega

theorem nat25AddPppoeTag_none {T rest tag : Bytes} {padding : ℕ} {stack : ℕ → UInt8}
    (hpre : pre.length = 18) (hroom : rest.length - padding < tag.le16 2 + tagHdrLen) :
    nat25AddPppoeTag ⟨frameMem pre length (T ++ rest), tagsAt + T.length + padding⟩ tag stack =
      none := by
  unfold nat25AddPppoeTag
  dsimp only
  rw [length_frameMem hpre, List.length_append, if_pos (by omega)]

/-- **What is put before the tags.** -/
theorem nat25AddPppoeTag_some {T rest tag : Bytes} {padding : ℕ} {stack : ℕ → UInt8}
    (hpre : pre.length = 18) (hT : T.length < 65536) (htag : tag.length ≤ tag.le16 2 + tagHdrLen)
    (hpad : padding ≤ rest.length) (hroom : tag.le16 2 + tagHdrLen ≤ rest.length - padding) :
    ∃ rest', nat25AddPppoeTag ⟨frameMem pre T.length (T ++ rest), tagsAt + T.length + padding⟩ tag
      stack = some
        ⟨frameMem pre (T.length + (tag.le16 2 + tagHdrLen))
          ((tag ++ (List.range (tag.le16 2 + tagHdrLen - tag.length)).map fun i =>
            stack (tag.length + i)) ++ (T ++ rest')),
          tagsAt + T.length + padding + (tag.le16 2 + tagHdrLen)⟩ := by
  generalize hD : tag.le16 2 + tagHdrLen = D at *
  have hsplit : T ++ rest = (T ++ rest).take D ++ (T ++ rest).drop D :=
    (List.take_append_drop D _).symm
  have htake : ((T ++ rest).take D).length = D := by
    rw [List.length_take, List.length_append]
    omega
  have hsegment : segment (frameMem pre T.length (T ++ rest)) tagsAt T.length = T :=
    @segment_frameMem pre [] T T.length tagsAt T.length hpre rfl rfl rest
  have hmoved : (frameMem pre T.length (T ++ rest)).overwrite (tagsAt + D) T =
      frameMem pre T.length ((T ++ rest).take D ++ (T ++ ((T ++ rest).drop D).drop T.length)) := by
    rw [← overwrite_frameMem hpre (by rw [htake]), ← hsplit]
  have hlen : (tag ++ (List.range (D - tag.length)).map fun i => stack (tag.length + i)).length =
      D := by
    rw [List.length_append, List.length_map, List.length_range]
    omega
  refine ⟨((T ++ rest).drop D).drop T.length, ?_⟩
  unfold nat25AddPppoeTag
  dsimp only
  rw [hD, length_frameMem hpre, List.length_append, if_neg (by omega), phLength_frameMem hpre hT,
    hsegment, hmoved, setPhLength_frameMem hpre]
  have hput := @overwrite_frameMem pre [] (T.length + D) tagsAt hpre rfl
    ((T ++ rest).take D ++ (T ++ ((T ++ rest).drop D).drop T.length))
    (tag ++ (List.range (D - tag.length)).map fun i => stack (tag.length + i))
  rw [List.nil_append, List.nil_append, hlen, List.drop_left' htake] at hput
  rw [hput]

end Memory

end Rtl88x2eu.Nat25
