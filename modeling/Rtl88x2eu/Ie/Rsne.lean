import Mathlib.Tactic.Ring
import Rtl88x2eu.Ie.Elements

/-!
# The RSN element

`rtw_rsne_info_parse` goes through the fields of an RSN element; the element may end behind any of
them, and `rtw_parse_wpa2_ie` makes bitmaps of what was found. The grammar of the element is a type
of its own: a field is there with what comes behind it, or the element ends.

## Main definitions

* `rtwRsneInfoParse`, `rtwParseWpa2Ie`
* `GroupField`, `IsRsne`, `RsneSlices`

## Main results

* `groupCs_complete`, `groupCs_sound`: the fields one by one
* `rsne_parsed`: exactly the elements of the grammar are accepted, with their slices and suites
-/

namespace Rtl88x2eu.Rsne

open Ie

/-! ## The parser -/

/-- `struct rsne_info`; a pointer is an offset of the element. -/
structure RsneInfo where
  gcs : Option ℕ := none
  pcsCnt : ℕ := 0
  pcsList : Option ℕ := none
  akmCnt : ℕ := 0
  akmList : Option ℕ := none
  cap : Option ℕ := none
  pmkidCnt : ℕ := 0
  pmkidList : Option ℕ := none
  gmcs : Option ℕ := none
  err : Bool := false
deriving DecidableEq

def wlanEidRsn : UInt8 := 48

def rsneErr (info : RsneInfo) : Bool × RsneInfo := (false, { info with err := true })

def rsneEnd (ie : Bytes) (info : RsneInfo) (pos : ℕ) : Bool × RsneInfo :=
  if ie.length ≠ pos then rsneErr info else (true, info)

def rsneGroupMgmtCs (ie : Bytes) (info : RsneInfo) (pos : ℕ) : Bool × RsneInfo :=
  if ie.length < pos + 4 then rsneEnd ie info pos else (true, { info with gmcs := some pos })

def rsnePmkid (ie : Bytes) (info : RsneInfo) (pos : ℕ) : Bool × RsneInfo :=
  if ie.length < pos + 2 then rsneEnd ie info pos
  else
    let cnt := ie.le16 pos
    let pos := pos + 2
    if ie.length < pos + 16 * cnt then rsneErr info
    else rsneGroupMgmtCs ie { info with pmkidCnt := cnt, pmkidList := some pos } (pos + 16 * cnt)

def rsneCap (ie : Bytes) (info : RsneInfo) (pos : ℕ) : Bool × RsneInfo :=
  if ie.length < pos + 2 then rsneEnd ie info pos
  else rsnePmkid ie { info with cap := some pos } (pos + 2)

def rsneList (next : Bytes → RsneInfo → ℕ → Bool × RsneInfo) (store : ℕ → ℕ → RsneInfo)
    (ie : Bytes) (info : RsneInfo) (pos : ℕ) : Bool × RsneInfo :=
  if ie.length < pos + 2 then rsneEnd ie info pos
  else
    let cnt := ie.le16 pos
    let pos := pos + 2
    if ie.length < pos + 4 * cnt then rsneEnd ie info pos
    else next ie (store cnt pos) (pos + 4 * cnt)

def rsneAkm (ie : Bytes) (info : RsneInfo) : ℕ → Bool × RsneInfo :=
  rsneList rsneCap (fun cnt pos => { info with akmCnt := cnt, akmList := some pos }) ie info

def rsnePairwiseCs (ie : Bytes) (info : RsneInfo) : ℕ → Bool × RsneInfo :=
  rsneList rsneAkm (fun cnt pos => { info with pcsCnt := cnt, pcsList := some pos }) ie info

def rsneGroupCs (ie : Bytes) (info : RsneInfo) (pos : ℕ) : Bool × RsneInfo :=
  if ie.length < pos + 4 then rsneEnd ie info pos
  else rsnePairwiseCs ie { info with gcs := some pos } (pos + 4)

def rtwRsneInfoParse (ie : Bytes) : Bool × RsneInfo :=
  if ie.length < 4 then rsneErr {}
  else if ie.u8 0 ≠ wlanEidRsn ∨ (ie.u8 1).toNat ≠ ie.length - 2 then rsneErr {}
  else if ie.le16 2 ≠ 1 then rsneErr {}
  else rsneGroupCs ie {} 4

/-! ## Bitmaps -/

def bit (n : ℕ) : UInt32 := UInt32.ofNat (2 ^ n)

/-- The suites of `rtw_get_rsn_cipher_suite` in its order, with their `WPA_CIPHER_*`. -/
def rsnCipherSuites : List (Bytes × UInt32) :=
  [([0x00, 0x0f, 0xac, 0], bit 0), ([0x00, 0x0f, 0xac, 1], bit 1),
    ([0x00, 0x0f, 0xac, 2], bit 3), ([0x00, 0x0f, 0xac, 4], bit 4),
    ([0x00, 0x0f, 0xac, 8], bit 5), ([0x00, 0x0f, 0xac, 9], bit 6),
    ([0x00, 0x0f, 0xac, 10], bit 7), ([0x00, 0x0f, 0xac, 5], bit 2),
    ([0x00, 0x0f, 0xac, 6], bit 8), ([0x00, 0x0f, 0xac, 11], bit 9),
    ([0x00, 0x0f, 0xac, 12], bit 10), ([0x00, 0x0f, 0xac, 13], bit 11)]

def rtwGetRsnCipherSuite (s : Bytes) : UInt32 := (rsnCipherSuites.lookup s).getD 0

/-- The suites of `rtw_get_akm_suite_bitmap` in its order, with their `WLAN_AKM_TYPE_*`. -/
def akmSuites : List (Bytes × UInt32) :=
  [([0x00, 0x0f, 0xac, 1], bit 0), ([0x00, 0x0f, 0xac, 2], bit 1),
    ([0x00, 0x0f, 0xac, 3], bit 2), ([0x00, 0x0f, 0xac, 4], bit 3),
    ([0x00, 0x0f, 0xac, 5], bit 4), ([0x00, 0x0f, 0xac, 6], bit 5),
    ([0x00, 0x0f, 0xac, 7], bit 6), ([0x00, 0x0f, 0xac, 8], bit 7),
    ([0x00, 0x0f, 0xac, 9], bit 8), ([0x00, 0x0f, 0xac, 11], bit 9),
    ([0x00, 0x0f, 0xac, 12], bit 10), ([0x00, 0x0f, 0xac, 14], bit 11),
    ([0x00, 0x0f, 0xac, 15], bit 12), ([0x00, 0x0f, 0xac, 16], bit 13),
    ([0x00, 0x0f, 0xac, 17], bit 14)]

def rtwGetAkmSuiteBitmap (s : Bytes) : UInt32 := (akmSuites.lookup s).getD 0

def unionOf (bitmap : Bytes → UInt32) (suites : List Bytes) : UInt32 :=
  suites.foldl (fun bits s => bits ||| bitmap s) 0

def suiteLoop (bitmap : Bytes → UInt32) (ie : Bytes) (list : Option ℕ) (cnt : ℕ) : UInt32 :=
  list.elim 0 fun q =>
    (List.range cnt).foldl (fun bits i => bits ||| bitmap (ie.read (q + 4 * i) 4)) 0

/-- What `rtw_parse_wpa2_ie` gives out. -/
structure Wpa2 where
  groupCipher : UInt32
  pairwiseCipher : UInt32
  gmcs : UInt32
  akm : UInt32
  mfpOpt : ℕ
  sppOpt : ℕ
deriving DecidableEq

/-- `rtw_parse_wpa2_ie`; without a result it failed. -/
def rtwParseWpa2Ie (rsnIe : Bytes) : Option Wpa2 :=
  let (ok, info) := rtwRsneInfoParse rsnIe
  let capBits (offset : ℕ) : ℕ := info.cap.elim 0 fun q => rsnIe.le16 q / 2 ^ offset % 4
  if !ok then none
  else
    some
      { groupCipher := info.gcs.elim 0 fun q => rtwGetRsnCipherSuite (rsnIe.read q 4)
        pairwiseCipher := suiteLoop rtwGetRsnCipherSuite rsnIe info.pcsList info.pcsCnt
        gmcs :=
          match info.gmcs with
          | some q => rtwGetRsnCipherSuite (rsnIe.read q 4)
          | none => if info.cap.isSome && 1 < capBits 6 then bit 8 else 0
        akm := suiteLoop rtwGetAkmSuiteBitmap rsnIe info.akmList info.akmCnt
        mfpOpt := capBits 6
        sppOpt := capBits 10 }

/-! ## The grammar -/

abbrev Block (k : ℕ) := { b : Bytes // b.length = k }

def flat {k : ℕ} (L : List (Block k)) : Bytes := L.flatMap Subtype.val

abbrev GroupMgmtField := Option (Block 4 × Bytes)

abbrev PmkidField := Option (List (Block 16) × GroupMgmtField)

/-- The capabilities. -/
abbrev CapField := Option (Block 2 × PmkidField)

inductive ListField (α : Type)
  | absent
  | countOnly (n : ℕ) (pos : 0 < n) (lt : n < 2 ^ 16)
  | list (L : List (Block 4)) (rest : α)

abbrev AkmField := ListField CapField

abbrev PairwiseField := ListField AkmField

/-- What may come behind the version, and `GroupField.bytes`. -/
abbrev GroupField := Option (Block 4 × PairwiseField)

def GroupMgmtField.bytes (g : GroupMgmtField) : Bytes := g.elim [] fun x => x.1.val ++ x.2

def PmkidField.bytes (g : PmkidField) : Bytes :=
  g.elim [] fun x => Bytes.ofLe16 x.1.length ++ (flat x.1 ++ GroupMgmtField.bytes x.2)

def CapField.bytes (g : CapField) : Bytes := g.elim [] fun x => x.1.val ++ PmkidField.bytes x.2

def ListField.bytes {α : Type} (rest : α → Bytes) : ListField α → Bytes
  | .absent => []
  | .countOnly n _ _ => Bytes.ofLe16 n
  | .list L r => Bytes.ofLe16 L.length ++ (flat L ++ rest r)

def AkmField.bytes : AkmField → Bytes := ListField.bytes CapField.bytes

def PairwiseField.bytes : PairwiseField → Bytes := ListField.bytes AkmField.bytes

def GroupField.bytes (g : GroupField) : Bytes :=
  g.elim [] fun x => x.1.val ++ PairwiseField.bytes x.2

/-- **The element consists of the fields** behind id, length and version. -/
def IsRsne (ie : Bytes) (g : GroupField) : Prop :=
  ∃ len : UInt8, ie = [wlanEidRsn, len, 1, 0] ++ GroupField.bytes g ∧ len.toNat = ie.length - 2

/-! ## Where the fields are -/

/-- The fields of an element, each with its offset. -/
structure RsneSlices where
  gcs : Option (ℕ × Block 4) := none
  pcs : Option (ℕ × List (Block 4)) := none
  akm : Option (ℕ × List (Block 4)) := none
  cap : Option (ℕ × Block 2) := none
  pmkid : Option (ℕ × List (Block 16)) := none
  gmcs : Option (ℕ × Block 4) := none

/-- The pointers and counts. -/
def RsneSlices.info (s : RsneSlices) : RsneInfo where
  gcs := s.gcs.map Prod.fst
  pcsCnt := s.pcs.elim 0 fun x => x.2.length
  pcsList := s.pcs.map Prod.fst
  akmCnt := s.akm.elim 0 fun x => x.2.length
  akmList := s.akm.map Prod.fst
  cap := s.cap.map Prod.fst
  pmkidCnt := s.pmkid.elim 0 fun x => x.2.length
  pmkidList := s.pmkid.map Prod.fst
  gmcs := s.gmcs.map Prod.fst

def Lies (ie : Bytes) (q : ℕ) (b : Bytes) : Prop :=
  q + b.length ≤ ie.length ∧ ie.read q b.length = b

/-- **Every slice lies inside** the element. -/
structure RsneSlices.Inside (ie : Bytes) (s : RsneSlices) : Prop where
  gcs : ∀ x ∈ s.gcs, Lies ie x.1 x.2.val
  pcs : ∀ x ∈ s.pcs, Lies ie x.1 (flat x.2)
  akm : ∀ x ∈ s.akm, Lies ie x.1 (flat x.2)
  cap : ∀ x ∈ s.cap, Lies ie x.1 x.2.val
  pmkid : ∀ x ∈ s.pmkid, Lies ie x.1 (flat x.2)
  gmcs : ∀ x ∈ s.gmcs, Lies ie x.1 x.2.val

/-- The parse goes on from the slices `s` and ends with `s'`, inside the element as those were. -/
def Found (ie : Bytes) (s s' : RsneSlices) (res : Bool × RsneInfo) : Prop :=
  res = (true, s'.info) ∧ (s.Inside ie → s'.Inside ie)

def GroupMgmtField.slices (g : GroupMgmtField) (s : RsneSlices) (pos : ℕ) : RsneSlices :=
  g.elim s fun x => { s with gmcs := some (pos, x.1) }

def PmkidField.slices (g : PmkidField) (s : RsneSlices) (pos : ℕ) : RsneSlices :=
  g.elim s fun x =>
    GroupMgmtField.slices x.2 { s with pmkid := some (pos + 2, x.1) } (pos + 2 + 16 * x.1.length)

def CapField.slices (g : CapField) (s : RsneSlices) (pos : ℕ) : RsneSlices :=
  g.elim s fun x => PmkidField.slices x.2 { s with cap := some (pos, x.1) } (pos + 2)

def ListField.slices {α : Type} (next : α → RsneSlices → ℕ → RsneSlices)
    (store : ℕ → List (Block 4) → RsneSlices) (s : RsneSlices) (pos : ℕ) : ListField α → RsneSlices
  | .absent => s
  | .countOnly .. => s
  | .list L rest => next rest (store (pos + 2) L) (pos + 2 + 4 * L.length)

def AkmField.slices (g : AkmField) (s : RsneSlices) (pos : ℕ) : RsneSlices :=
  ListField.slices CapField.slices (fun q L => { s with akm := some (q, L) }) s pos g

def PairwiseField.slices (g : PairwiseField) (s : RsneSlices) (pos : ℕ) : RsneSlices :=
  ListField.slices AkmField.slices (fun q L => { s with pcs := some (q, L) }) s pos g

def GroupField.slices (g : GroupField) (s : RsneSlices) (pos : ℕ) : RsneSlices :=
  g.elim s fun x => PairwiseField.slices x.2 { s with gcs := some (pos, x.1) } (pos + 4)

variable {k n pos : ℕ} {ie pre r : Bytes} {info : RsneInfo} {s : RsneSlices}

/-! ## Counts and blocks -/

theorem length_ofLe16 (n : ℕ) : (Bytes.ofLe16 n).length = 2 := rfl

theorem le16_append (pre r : Bytes) (hn : n < 2 ^ 16) :
    (pre ++ (Bytes.ofLe16 n ++ r)).le16 pre.length = n := by
  have hlo : (pre ++ (Bytes.ofLe16 n ++ r)).u8 pre.length = UInt8.ofNat n :=
    u8_append_right pre (Bytes.ofLe16 n ++ r) 0
  have hhi : (pre ++ (Bytes.ofLe16 n ++ r)).u8 (pre.length + 1) = UInt8.ofNat (n / 256) :=
    u8_append_right pre (Bytes.ofLe16 n ++ r) 1
  unfold Bytes.le16
  rw [hlo, hhi, UInt8.toNat_ofNat', UInt8.toNat_ofNat']
  omega

theorem drop_eq_ofLe16 (h : pos + 2 ≤ ie.length) :
    ie.drop pos = Bytes.ofLe16 (ie.le16 pos) ++ ie.drop (pos + 2) := by
  have h0 : pos < ie.length := by omega
  have h1 : pos + 1 < ie.length := by omega
  rw [List.drop_eq_getElem_cons h0, List.drop_eq_getElem_cons h1]
  have hb : ∀ i (hi : i < ie.length), ie.u8 i = ie[i] := fun i hi => by simp [Bytes.u8, hi]
  have hlt := (ie.u8 pos).toNat_lt
  have hlt' := (ie.u8 (pos + 1)).toNat_lt
  have hlo : UInt8.ofNat (ie.le16 pos) = ie[pos] := by
    rw [← hb pos h0]
    apply UInt8.toNat_inj.mp
    rw [UInt8.toNat_ofNat']
    unfold Bytes.le16
    omega
  have hhi : UInt8.ofNat (ie.le16 pos / 256) = ie[pos + 1] := by
    rw [← hb (pos + 1) h1]
    apply UInt8.toNat_inj.mp
    rw [UInt8.toNat_ofNat']
    unfold Bytes.le16
    omega
  rw [Bytes.ofLe16, hlo, hhi]
  rfl

@[simp] theorem length_flat (L : List (Block k)) : (flat L).length = k * L.length := by
  induction L with
  | nil => rfl
  | cons b L ih =>
    have hb := b.property
    rw [flat, List.flatMap_cons, List.length_append, hb, List.length_cons]
    change k + (flat L).length = _
    rw [ih]
    ring

theorem exists_blocks (k : ℕ) (n : ℕ) :
    ∀ b : Bytes, b.length = k * n → ∃ L : List (Block k), L.length = n ∧ flat L = b := by
  induction n with
  | zero =>
    intro b hb
    exact ⟨[], rfl, (List.eq_nil_of_length_eq_zero hb).symm⟩
  | succ n ih =>
    intro b hb
    have hlen : b.length = k * n + k := hb
    obtain ⟨L, hL, hflat⟩ := ih (b.drop k) (by rw [List.length_drop]; omega)
    refine ⟨⟨b.take k, by rw [List.length_take]; omega⟩ :: L, congrArg (· + 1) hL, ?_⟩
    change b.take k ++ flat L = b
    rw [hflat, List.take_append_drop]

theorem exists_block (h : pos + k ≤ ie.length) :
    ∃ b : Block k, ie.drop pos = b.val ++ ie.drop (pos + k) := by
  refine ⟨⟨(ie.drop pos).take k, ?_⟩, ?_⟩
  · rw [List.length_take, List.length_drop]
    omega
  · rw [← List.drop_drop, List.take_append_drop]

theorem exists_list (h : pos + 2 ≤ ie.length) (hlist : pos + 2 + k * ie.le16 pos ≤ ie.length) :
    ∃ L : List (Block k), L.length = ie.le16 pos ∧
      ie.drop pos = Bytes.ofLe16 L.length ++ (flat L ++ ie.drop (pos + 2 + k * ie.le16 pos)) := by
  obtain ⟨L, hL, hflat⟩ := exists_blocks k (ie.le16 pos)
    ((ie.drop (pos + 2)).take (k * ie.le16 pos))
    (by rw [List.length_take, List.length_drop]; omega)
  refine ⟨L, hL, ?_⟩
  rw [drop_eq_ofLe16 h, hL, hflat, ← List.drop_drop (i := k * ie.le16 pos), List.take_append_drop]

theorem drop_of_drop {b : Bytes} (h : ie.drop pos = b ++ r) (hk : b.length = k) :
    ie.drop (pos + k) = r := by
  rw [← List.drop_drop, h, List.drop_left' hk]

theorem length_of_drop {b : Bytes} (hpos : pos ≤ ie.length) (h : ie.drop pos = b) :
    ie.length = pos + b.length := by
  rw [← h, List.length_drop]
  omega

theorem le16_of_drop (hpos : pos ≤ ie.length) (h : ie.drop pos = Bytes.ofLe16 n ++ r)
    (hn : n < 2 ^ 16) : ie.le16 pos = n := by
  have hle := le16_append (ie.take pos) r hn
  rw [← h, List.take_append_drop, List.length_take, Nat.min_eq_left hpos] at hle
  exact hle

theorem lies_of_drop {b : Bytes} (hpos : pos ≤ ie.length) (h : ie.drop pos = b ++ r) :
    Lies ie pos b := by
  have hlen := length_of_drop hpos h
  rw [List.length_append] at hlen
  have hread := read_append (ie.take pos) b r
  rw [← h, List.take_append_drop, List.length_take, Nat.min_eq_left hpos] at hread
  exact ⟨by omega, hread⟩

theorem rsneEnd_of_drop (s : RsneSlices) (hpos : pos ≤ ie.length) (h : ie.drop pos = []) :
    Found ie s s (rsneEnd ie s.info pos) := by
  have hlen := length_of_drop hpos h
  exact ⟨if_neg (not_not.mpr hlen), id⟩

theorem groupMgmtCs_complete (g : GroupMgmtField) (s : RsneSlices) (hpos : pos ≤ ie.length)
    (h : ie.drop pos = g.bytes) :
    Found ie s (GroupMgmtField.slices g s pos) (rsneGroupMgmtCs ie s.info pos) := by
  have hlen := length_of_drop hpos h
  unfold rsneGroupMgmtCs
  cases g with
  | none =>
    rw [if_pos (by rw [hlen]; exact Nat.lt_add_of_pos_right (by decide))]
    exact rsneEnd_of_drop s hpos h
  | some x =>
    obtain ⟨b, ignored⟩ := x
    have hb := b.property
    have hbytes : (GroupMgmtField.bytes (some (b, ignored))).length = 4 + ignored.length := by
      rw [GroupMgmtField.bytes, Option.elim_some, List.length_append, hb]
    rw [if_neg (by omega)]
    refine ⟨rfl, fun hs => ⟨hs.gcs, hs.pcs, hs.akm, hs.cap, hs.pmkid, ?_⟩⟩
    rintro _ ⟨⟩
    exact lies_of_drop hpos h

theorem pmkid_complete (g : PmkidField) (s : RsneSlices) (hshort : ie.length < 2 ^ 16)
    (hpos : pos ≤ ie.length) (h : ie.drop pos = g.bytes) :
    Found ie s (PmkidField.slices g s pos) (rsnePmkid ie s.info pos) := by
  have hlen := length_of_drop hpos h
  unfold rsnePmkid
  cases g with
  | none =>
    rw [if_pos (by rw [hlen]; exact Nat.lt_add_of_pos_right (by decide))]
    exact rsneEnd_of_drop s hpos h
  | some x =>
    obtain ⟨L, g⟩ := x
    change ie.drop pos = Bytes.ofLe16 L.length ++ (flat L ++ GroupMgmtField.bytes g) at h
    have hbytes : (PmkidField.bytes (some (L, g))).length =
        2 + (16 * L.length + (GroupMgmtField.bytes g).length) := by
      rw [PmkidField.bytes, Option.elim_some, List.length_append, List.length_append,
        length_ofLe16, length_flat]
    have hcnt : ie.le16 pos = L.length := le16_of_drop hpos h (by omega)
    have hlist := drop_of_drop h (length_ofLe16 _)
    have hrest := drop_of_drop hlist (length_flat L)
    rw [if_neg (by omega)]
    dsimp only
    rw [hcnt, if_neg (by omega)]
    have hgmcs := groupMgmtCs_complete g { s with pmkid := some (pos + 2, L) } (by omega) hrest
    refine ⟨hgmcs.1, fun hs => hgmcs.2 ⟨hs.gcs, hs.pcs, hs.akm, hs.cap, ?_, hs.gmcs⟩⟩
    rintro _ ⟨⟩
    exact lies_of_drop (by omega) hlist

theorem cap_complete (g : CapField) (s : RsneSlices) (hshort : ie.length < 2 ^ 16)
    (hpos : pos ≤ ie.length) (h : ie.drop pos = g.bytes) :
    Found ie s (CapField.slices g s pos) (rsneCap ie s.info pos) := by
  have hlen := length_of_drop hpos h
  unfold rsneCap
  cases g with
  | none =>
    rw [if_pos (by rw [hlen]; exact Nat.lt_add_of_pos_right (by decide))]
    exact rsneEnd_of_drop s hpos h
  | some x =>
    obtain ⟨b, g⟩ := x
    have hb := b.property
    change ie.drop pos = b.val ++ PmkidField.bytes g at h
    have hbytes : (CapField.bytes (some (b, g))).length = 2 + (PmkidField.bytes g).length := by
      rw [CapField.bytes, Option.elim_some, List.length_append, hb]
    rw [if_neg (by omega)]
    have hpmkid := pmkid_complete g { s with cap := some (pos, b) } hshort (by omega)
      (drop_of_drop h hb)
    refine ⟨hpmkid.1, fun hs => hpmkid.2 ⟨hs.gcs, hs.pcs, hs.akm, ?_, hs.pmkid, hs.gmcs⟩⟩
    rintro _ ⟨⟩
    exact lies_of_drop hpos h

theorem list_complete {α : Type} {rest : α → Bytes} {store : ℕ → ℕ → RsneInfo}
    {next : Bytes → RsneInfo → ℕ → Bool × RsneInfo} {nextSlices : α → RsneSlices → ℕ → RsneSlices}
    {storeSlices : ℕ → List (Block 4) → RsneSlices} (g : ListField α) (s : RsneSlices)
    (hshort : ie.length < 2 ^ 16) (hpos : pos ≤ ie.length) (h : ie.drop pos = g.bytes rest)
    (hstore : ∀ q L, store L.length q = (storeSlices q L).info)
    (hinside : ∀ q L, Lies ie q (flat L) → s.Inside ie → (storeSlices q L).Inside ie)
    (hnext : ∀ g' s' q, q ≤ ie.length → ie.drop q = rest g' →
      Found ie s' (nextSlices g' s' q) (next ie s'.info q)) :
    Found ie s (ListField.slices nextSlices storeSlices s pos g)
      (rsneList next store ie s.info pos) := by
  have hlen := length_of_drop hpos h
  unfold rsneList
  cases g with
  | absent =>
    rw [if_pos (by rw [hlen]; exact Nat.lt_add_of_pos_right (by decide))]
    exact rsneEnd_of_drop s hpos h
  | countOnly n hn hlt =>
    change ie.drop pos = Bytes.ofLe16 n at h
    rw [← List.append_nil (Bytes.ofLe16 n)] at h
    change ie.length = pos + 2 at hlen
    rw [if_neg (by omega)]
    dsimp only
    -- the count promises suites, and none is there
    rw [le16_of_drop hpos h hlt, if_pos (by omega)]
    exact rsneEnd_of_drop s (by omega) (drop_of_drop h (length_ofLe16 n))
  | list L g =>
    change ie.drop pos = Bytes.ofLe16 L.length ++ (flat L ++ rest g) at h
    have hbytes : (ListField.bytes rest (.list L g)).length =
        2 + (4 * L.length + (rest g).length) := by
      rw [ListField.bytes, List.length_append, List.length_append, length_ofLe16, length_flat]
    have hcnt : ie.le16 pos = L.length := le16_of_drop hpos h (by omega)
    have hlist := drop_of_drop h (length_ofLe16 _)
    have hrest := drop_of_drop hlist (length_flat L)
    rw [if_neg (by omega)]
    dsimp only
    rw [hcnt, if_neg (by omega), hstore]
    have hfound := hnext g (storeSlices (pos + 2) L) _ (by omega) hrest
    refine ⟨hfound.1, fun hs => hfound.2 (hinside _ _ ?_ hs)⟩
    exact lies_of_drop (by omega) hlist

theorem akm_complete (g : AkmField) (s : RsneSlices) (hshort : ie.length < 2 ^ 16)
    (hpos : pos ≤ ie.length) (h : ie.drop pos = g.bytes) :
    Found ie s (AkmField.slices g s pos) (rsneAkm ie s.info pos) := by
  refine list_complete g s hshort hpos h (fun _ _ => rfl) ?_ fun g s _ => cap_complete g s hshort
  intro q L hlies hs
  refine ⟨hs.gcs, hs.pcs, ?_, hs.cap, hs.pmkid, hs.gmcs⟩
  rintro _ ⟨⟩
  exact hlies

theorem pairwiseCs_complete (g : PairwiseField) (s : RsneSlices) (hshort : ie.length < 2 ^ 16)
    (hpos : pos ≤ ie.length) (h : ie.drop pos = g.bytes) :
    Found ie s (PairwiseField.slices g s pos) (rsnePairwiseCs ie s.info pos) := by
  refine list_complete g s hshort hpos h (fun _ _ => rfl) ?_ fun g s _ => akm_complete g s hshort
  intro q L hlies hs
  refine ⟨hs.gcs, ?_, hs.akm, hs.cap, hs.pmkid, hs.gmcs⟩
  rintro _ ⟨⟩
  exact hlies

theorem groupCs_complete (g : GroupField) (s : RsneSlices) (hshort : ie.length < 2 ^ 16)
    (hpos : pos ≤ ie.length) (h : ie.drop pos = g.bytes) :
    Found ie s (GroupField.slices g s pos) (rsneGroupCs ie s.info pos) := by
  have hlen := length_of_drop hpos h
  unfold rsneGroupCs
  cases g with
  | none =>
    rw [if_pos (by rw [hlen]; exact Nat.lt_add_of_pos_right (by decide))]
    exact rsneEnd_of_drop s hpos h
  | some x =>
    obtain ⟨b, g⟩ := x
    have hb := b.property
    change ie.drop pos = b.val ++ PairwiseField.bytes g at h
    have hbytes : (GroupField.bytes (some (b, g))).length =
        4 + (PairwiseField.bytes g).length := by
      rw [GroupField.bytes, Option.elim_some, List.length_append, hb]
    rw [if_neg (by omega)]
    have hpairwise := pairwiseCs_complete g { s with gcs := some (pos, b) } hshort (by omega)
      (drop_of_drop h hb)
    refine ⟨hpairwise.1, fun hs => hpairwise.2 ⟨?_, hs.pcs, hs.akm, hs.cap, hs.pmkid, hs.gmcs⟩⟩
    rintro _ ⟨⟩
    exact lies_of_drop hpos h

theorem drop_of_rsneEnd (h : (rsneEnd ie info pos).1 = true) : ie.drop pos = [] := by
  unfold rsneEnd at h
  by_cases hend : ie.length ≠ pos
  · rw [if_pos hend] at h
    exact (nomatch h)
  · exact List.drop_eq_nil_of_le (not_not.mp hend).le

theorem groupMgmtCs_sound (h : (rsneGroupMgmtCs ie info pos).1 = true) :
    ∃ g, ie.drop pos = GroupMgmtField.bytes g := by
  unfold rsneGroupMgmtCs at h
  by_cases hroom : ie.length < pos + 4
  · rw [if_pos hroom] at h
    exact ⟨none, drop_of_rsneEnd h⟩
  · obtain ⟨b, hb⟩ := exists_block (not_lt.mp hroom)
    exact ⟨some (b, ie.drop (pos + 4)), hb⟩

theorem pmkid_sound (h : (rsnePmkid ie info pos).1 = true) :
    ∃ g, ie.drop pos = PmkidField.bytes g := by
  unfold rsnePmkid at h
  by_cases hroom : ie.length < pos + 2
  · rw [if_pos hroom] at h
    exact ⟨none, drop_of_rsneEnd h⟩
  · rw [if_neg hroom] at h
    dsimp only at h
    by_cases hlist : ie.length < pos + 2 + 16 * ie.le16 pos
    · rw [if_pos hlist] at h
      exact (nomatch h)
    · rw [if_neg hlist] at h
      obtain ⟨g, hg⟩ := groupMgmtCs_sound h
      obtain ⟨L, -, hL⟩ := exists_list (not_lt.mp hroom) (not_lt.mp hlist)
      refine ⟨some (L, g), ?_⟩
      rw [hL, hg]
      rfl

theorem cap_sound (h : (rsneCap ie info pos).1 = true) : ∃ g, ie.drop pos = CapField.bytes g := by
  unfold rsneCap at h
  by_cases hroom : ie.length < pos + 2
  · rw [if_pos hroom] at h
    exact ⟨none, drop_of_rsneEnd h⟩
  · rw [if_neg hroom] at h
    obtain ⟨g, hg⟩ := pmkid_sound h
    obtain ⟨b, hb⟩ := exists_block (not_lt.mp hroom)
    refine ⟨some (b, g), ?_⟩
    rw [hb, hg]
    rfl

theorem list_sound {α : Type} {rest : α → Bytes} {store : ℕ → ℕ → RsneInfo}
    {next : Bytes → RsneInfo → ℕ → Bool × RsneInfo}
    (hnext : ∀ info pos, (next ie info pos).1 = true → ∃ g, ie.drop pos = rest g)
    (h : (rsneList next store ie info pos).1 = true) :
    ∃ g : ListField α, ie.drop pos = g.bytes rest := by
  unfold rsneList at h
  by_cases hroom : ie.length < pos + 2
  · rw [if_pos hroom] at h
    exact ⟨.absent, drop_of_rsneEnd h⟩
  · rw [if_neg hroom] at h
    dsimp only at h
    by_cases hlist : ie.length < pos + 2 + 4 * ie.le16 pos
    · rw [if_pos hlist] at h
      have hend := drop_of_rsneEnd h
      have hle := List.drop_eq_nil_iff.mp hend
      refine ⟨.countOnly (ie.le16 pos) (by omega) (ie.le16_lt pos), ?_⟩
      rw [drop_eq_ofLe16 (not_lt.mp hroom), hend, List.append_nil]
      rfl
    · rw [if_neg hlist] at h
      obtain ⟨g, hg⟩ := hnext _ _ h
      obtain ⟨L, -, hL⟩ := exists_list (not_lt.mp hroom) (not_lt.mp hlist)
      refine ⟨.list L g, ?_⟩
      rw [hL, hg]
      rfl

theorem akm_sound (h : (rsneAkm ie info pos).1 = true) : ∃ g, ie.drop pos = AkmField.bytes g :=
  list_sound (fun _ _ => cap_sound) h

theorem pairwiseCs_sound (h : (rsnePairwiseCs ie info pos).1 = true) :
    ∃ g, ie.drop pos = PairwiseField.bytes g :=
  list_sound (fun _ _ => akm_sound) h

theorem groupCs_sound (h : (rsneGroupCs ie info pos).1 = true) :
    ∃ g, ie.drop pos = GroupField.bytes g := by
  unfold rsneGroupCs at h
  by_cases hroom : ie.length < pos + 4
  · rw [if_pos hroom] at h
    exact ⟨none, drop_of_rsneEnd h⟩
  · rw [if_neg hroom] at h
    obtain ⟨g, hg⟩ := pairwiseCs_sound h
    obtain ⟨b, hb⟩ := exists_block (not_lt.mp hroom)
    refine ⟨some (b, g), ?_⟩
    rw [hb, hg]
    rfl

/-! ## Pointers of a refused element -/

/-- What the pointers and counts denote ends inside the element. -/
structure RsneInfo.Inside (ie : Bytes) (info : RsneInfo) : Prop where
  gcs : ∀ q ∈ info.gcs, q + 4 ≤ ie.length
  pcs : ∀ q ∈ info.pcsList, q + 4 * info.pcsCnt ≤ ie.length
  akm : ∀ q ∈ info.akmList, q + 4 * info.akmCnt ≤ ie.length
  cap : ∀ q ∈ info.cap, q + 2 ≤ ie.length
  pmkid : ∀ q ∈ info.pmkidList, q + 16 * info.pmkidCnt ≤ ie.length
  gmcs : ∀ q ∈ info.gmcs, q + 4 ≤ ie.length

theorem inside_rsneErr (h : info.Inside ie) : (rsneErr info).2.Inside ie :=
  ⟨h.gcs, h.pcs, h.akm, h.cap, h.pmkid, h.gmcs⟩

theorem inside_rsneEnd (h : info.Inside ie) : (rsneEnd ie info pos).2.Inside ie := by
  unfold rsneEnd
  split
  · exact inside_rsneErr h
  · exact h

theorem inside_groupMgmtCs (h : info.Inside ie) : (rsneGroupMgmtCs ie info pos).2.Inside ie := by
  unfold rsneGroupMgmtCs
  split
  · exact inside_rsneEnd h
  · next hroom =>
    refine ⟨h.gcs, h.pcs, h.akm, h.cap, h.pmkid, ?_⟩
    rintro _ ⟨⟩
    exact not_lt.mp hroom

theorem inside_pmkid (h : info.Inside ie) : (rsnePmkid ie info pos).2.Inside ie := by
  unfold rsnePmkid
  split
  · exact inside_rsneEnd h
  · dsimp only
    split
    · exact inside_rsneErr h
    · next hlist =>
      refine inside_groupMgmtCs ⟨h.gcs, h.pcs, h.akm, h.cap, ?_, h.gmcs⟩
      rintro _ ⟨⟩
      exact not_lt.mp hlist

theorem inside_cap (h : info.Inside ie) : (rsneCap ie info pos).2.Inside ie := by
  unfold rsneCap
  split
  · exact inside_rsneEnd h
  · next hroom =>
    refine inside_pmkid ⟨h.gcs, h.pcs, h.akm, ?_, h.pmkid, h.gmcs⟩
    rintro _ ⟨⟩
    exact not_lt.mp hroom

theorem inside_list {store : ℕ → ℕ → RsneInfo} {next : Bytes → RsneInfo → ℕ → Bool × RsneInfo}
    (h : info.Inside ie)
    (hnext : ∀ cnt q, q + 4 * cnt ≤ ie.length →
      (next ie (store cnt q) (q + 4 * cnt)).2.Inside ie) :
    (rsneList next store ie info pos).2.Inside ie := by
  unfold rsneList
  split
  · exact inside_rsneEnd h
  · dsimp only
    split
    · exact inside_rsneEnd h
    · next hlist => exact hnext _ _ (not_lt.mp hlist)

theorem inside_akm (h : info.Inside ie) : (rsneAkm ie info pos).2.Inside ie := by
  refine inside_list h fun cnt q hq => ?_
  refine inside_cap ⟨h.gcs, h.pcs, ?_, h.cap, h.pmkid, h.gmcs⟩
  rintro _ ⟨⟩
  exact hq

theorem inside_pairwiseCs (h : info.Inside ie) : (rsnePairwiseCs ie info pos).2.Inside ie := by
  refine inside_list h fun cnt q hq => ?_
  refine inside_akm ⟨h.gcs, ?_, h.akm, h.cap, h.pmkid, h.gmcs⟩
  rintro _ ⟨⟩
  exact hq

theorem inside_groupCs (h : info.Inside ie) : (rsneGroupCs ie info pos).2.Inside ie := by
  unfold rsneGroupCs
  split
  · exact inside_rsneEnd h
  · next hroom =>
    refine inside_pairwiseCs ⟨?_, h.pcs, h.akm, h.cap, h.pmkid, h.gmcs⟩
    rintro _ ⟨⟩
    exact not_lt.mp hroom

theorem inside_empty (ie : Bytes) : RsneInfo.Inside ie {} := by
  constructor <;> rintro _ ⟨⟩

theorem inside_rtwRsneInfoParse (ie : Bytes) : (rtwRsneInfoParse ie).2.Inside ie := by
  have herr := inside_rsneErr (inside_empty ie)
  unfold rtwRsneInfoParse
  split
  · exact herr
  · split
    · exact herr
    · split
      · exact herr
      · exact inside_groupCs (inside_empty ie)

theorem read_add (ie : Bytes) (q m n : ℕ) :
    ie.read q (m + n) = ie.read q m ++ ie.read (q + m) n := by
  simp only [Bytes.read, List.range_add, List.map_append, List.map_map]
  refine congrArg _ (List.map_congr_left fun i _ => ?_)
  exact congrArg ie.u8 (Nat.add_assoc q m i).symm

theorem Lies.split {q : ℕ} {b c : Bytes} (h : Lies ie q (b ++ c)) :
    ie.read q b.length = b ∧ Lies ie (q + b.length) c := by
  obtain ⟨hroom, hread⟩ := h
  rw [List.length_append] at hroom hread
  rw [read_add] at hread
  have hlen : (ie.read q b.length).length = b.length := by simp [Bytes.read]
  obtain ⟨hb, hc⟩ := List.append_inj hread hlen
  exact ⟨hb, by omega, hc⟩

theorem suites_of_lies (L : List (Block 4)) :
    ∀ q, Lies ie q (flat L) →
      (List.range L.length).map (fun i => ie.read (q + 4 * i) 4) = L.map Subtype.val := by
  induction L with
  | nil => exact fun _ _ => rfl
  | cons b L ih =>
    intro q h
    obtain ⟨hb, hL⟩ := Lies.split (b := b.val) (c := flat L) h
    rw [b.property] at hb hL
    rw [List.length_cons, List.range_succ_eq_map, List.map_cons, List.map_map, List.map_cons,
      ← ih (q + 4) hL]
    refine congrArg₂ _ hb (List.map_congr_left fun i _ => ?_)
    have hi : q + 4 * (i + 1) = q + 4 + 4 * i := by ring
    exact congrArg (ie.read · 4) hi

def suites (list : Option (ℕ × List (Block 4))) : List Bytes :=
  list.elim [] fun x => x.2.map Subtype.val

theorem suiteLoop_eq (bitmap : Bytes → UInt32) (list : Option (ℕ × List (Block 4)))
    (h : ∀ x ∈ list, Lies ie x.1 (flat x.2)) :
    suiteLoop bitmap ie (list.map Prod.fst) (list.elim 0 fun x => x.2.length) =
      unionOf bitmap (suites list) := by
  cases list with
  | none => rfl
  | some x =>
    have hsuites := suites_of_lies x.2 x.1 (h x rfl)
    change _ = (x.2.map Subtype.val).foldl (fun bits s => bits ||| bitmap s) 0
    rw [← hsuites, List.foldl_map]
    rfl

def GroupField.sliced (g : GroupField) : RsneSlices := GroupField.slices g {} 4

theorem IsRsne.parsed {g : GroupField} (h : IsRsne ie g) :
    Found ie {} g.sliced (rtwRsneInfoParse ie) := by
  obtain ⟨len, hie, hlen⟩ := h
  have hshort := len.toNat_lt
  have hdrop : ie.drop 4 = GroupField.bytes g := by rw [hie]; rfl
  have hfour : ie.length = 4 + (GroupField.bytes g).length := by
    rw [hie, List.length_append]
    rfl
  have hid : ie.u8 0 = wlanEidRsn := by rw [hie]; rfl
  have hsecond : ie.u8 1 = len := by rw [hie]; rfl
  have hversion : ie.le16 2 = 1 := by rw [hie]; rfl
  unfold rtwRsneInfoParse
  rw [if_neg (by omega), if_neg (by rw [hid, hsecond, hlen]; simp), if_neg (by simp [hversion])]
  exact groupCs_complete g {} (by omega) (by omega) hdrop

theorem exists_isRsne (h : (rtwRsneInfoParse ie).1 = true) : ∃ g, IsRsne ie g := by
  unfold rtwRsneInfoParse at h
  by_cases hfour : ie.length < 4
  · rw [if_pos hfour] at h
    exact (nomatch h)
  rw [if_neg hfour] at h
  by_cases hhead : ie.u8 0 ≠ wlanEidRsn ∨ (ie.u8 1).toNat ≠ ie.length - 2
  · rw [if_pos hhead] at h
    exact (nomatch h)
  rw [if_neg hhead] at h
  by_cases hversion : ie.le16 2 ≠ 1
  · rw [if_pos hversion] at h
    exact (nomatch h)
  rw [if_neg hversion] at h
  obtain ⟨hid, hlen⟩ := not_or.mp hhead
  obtain ⟨g, hg⟩ := groupCs_sound h
  refine ⟨g, ie.u8 1, ?_, not_not.mp hlen⟩
  have hver := drop_eq_ofLe16 (show 2 + 2 ≤ ie.length by omega)
  rw [not_not.mp hversion, hg] at hver
  obtain ⟨b0, b1, rest, rfl⟩ : ∃ b0 b1 rest, ie = b0 :: b1 :: rest := by
    match ie, hfour with
    | [], hfour => exact absurd (by decide) hfour
    | [_], hfour => exact absurd (by simp) hfour
    | b0 :: b1 :: rest, _ => exact ⟨b0, b1, rest, rfl⟩
  have hid : b0 = wlanEidRsn := not_not.mp hid
  change rest = _ at hver
  rw [hid, hver]
  rfl

/-- **The parser accepts exactly the grammar**, with the slices and suites it assigns. -/
theorem rsne_parsed (ie : Bytes) :
    ((rtwRsneInfoParse ie).1 = true ↔ ∃ g, IsRsne ie g) ∧
    (∀ g, IsRsne ie g →
      (rtwRsneInfoParse ie).2 = g.sliced.info ∧ g.sliced.Inside ie ∧
      (rtwParseWpa2Ie ie).map Wpa2.pairwiseCipher =
        some (unionOf rtwGetRsnCipherSuite (suites g.sliced.pcs)) ∧
      (rtwParseWpa2Ie ie).map Wpa2.akm =
        some (unionOf rtwGetAkmSuiteBitmap (suites g.sliced.akm))) ∧
    (rtwRsneInfoParse ie).2.Inside ie := by
  refine ⟨⟨exists_isRsne, ?_⟩, ?_, inside_rtwRsneInfoParse ie⟩
  · rintro ⟨g, hg⟩
    rw [hg.parsed.1]
  · intro g hg
    obtain ⟨hparse, hinside⟩ := hg.parsed
    have hin : g.sliced.Inside ie := hinside (by constructor <;> rintro _ ⟨⟩)
    refine ⟨by rw [hparse], hin, ?_, ?_⟩
    · unfold rtwParseWpa2Ie
      rw [hparse]
      exact congrArg some (suiteLoop_eq rtwGetRsnCipherSuite g.sliced.pcs hin.pcs)
    · unfold rtwParseWpa2Ie
      rw [hparse]
      exact congrArg some (suiteLoop_eq rtwGetAkmSuiteBitmap g.sliced.akm hin.akm)

example :
    (rtwParseWpa2Ie
      [48, 20, 1, 0, 0, 15, 172, 4, 1, 0, 0, 15, 172, 4, 1, 0, 0, 15, 172, 2, 128, 0]).map
        (fun w => (w.pairwiseCipher, w.akm, w.mfpOpt)) = some (bit 4, bit 1, 2) := by
  decide

end Rtl88x2eu.Rsne
