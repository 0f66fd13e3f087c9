import Mathlib.Data.List.Flatten
import Rtl88x2eu.Ie.Edit

/-!
# Rates of a network

`rtw_update_rate_bymode` takes out of the supported-rates element the rates that the wireless mode
does not have, in place, and in an 802.11b network the extended-rates elements. The new rates are
gathered in an array of 16 bytes. The removal of the extended rates is given the length of the
elements from before the rates were filtered, and the length of the network is then decreased by the
body of one of them, without its header.

## Main definitions

* `rtwFilterSuppportRateie`, `rtwUpdateRateBymode`
* `Reduced`, `RatesKept`

## Main results

* `ratesKept_iff`: which networks keep their elements
* `not_ratesKept`: an 802.11b network with an extended-rates element
-/

namespace Rtl88x2eu.Ie

/-! ## Rates -/

def wifiCckrates : Bytes := [0x82, 0x84, 0x8b, 0x96]

def wifiOfdmrates : Bytes := [0x0c, 0x12, 0x18, 0x24, 0x30, 0x48, 0x60, 0x6c]

def rtwBasicRateOfdm : Bytes := [0x8c, 0x98, 0xb0]

def ieee80211BasicRateMask : UInt8 := 0x80

def rateAmong (table : Bytes) (rate : UInt8) : Bool := table.any fun r => r &&& 0x7f = rate &&& 0x7f

def rtwIsCckRate : UInt8 → Bool := rateAmong wifiCckrates

def rtwIsOfdmRate : UInt8 → Bool := rateAmong wifiOfdmrates

def rtwIsBasicRateOfdm : UInt8 → Bool := rateAmong rtwBasicRateOfdm

/-- The sections that rates are filtered for. -/
inductive RateSection
  | cck
  | ofdm
deriving DecidableEq

def RateSection.keeps : RateSection → UInt8 → Bool
  | cck => rtwIsCckRate
  | ofdm => rtwIsOfdmRate

/-! ## The network -/

def beaconIeOffset : ℕ := 12

def supportedratesIe : UInt8 := 1

def extSupportedratesIe : UInt8 := 50

def ndis80211LengthRatesEx : ℕ := 16

def wireless11b : ℕ := 1
def wireless11g : ℕ := 2
def wireless11a : ℕ := 4
def wireless1124n : ℕ := 8
def wireless115n : ℕ := 16
def wireless11ac : ℕ := 32
def wireless11bg : ℕ := wireless11b ||| wireless11g

structure WlanBssidEx where
  ies : Bytes
  ieLength : ℕ
  /-- `Configuration.DSConfig`, the channel. -/
  dsConfig : ℕ
  supportedRates : Bytes

/-- The elements of the network. -/
def WlanBssidEx.elems (w : WlanBssidEx) : IesState where
  ies := w.ies
  iesLen := w.ieLength

structure RateOutcome where
  network : WlanBssidEx
  /-- Where `IEs` was written. -/
  ieWrites : List ℕ := []
  newRateWrites : List ℕ := []

def rtwSetSupportedRate (mode : ℕ) : Bytes :=
  let rates :=
    if mode = wireless11b then wifiCckrates
    else if mode = wireless11g ∨ mode = wireless11a ∨ mode = wireless115n ∨
        mode = wireless11a ||| wireless115n ∨ mode = wireless11a ||| wireless11ac then
      wifiOfdmrates
    else if mode = wireless11bg ∨ mode = wireless11g ||| wireless1124n ∨ mode = wireless1124n ∨
        mode = wireless11bg ||| wireless1124n then
      wifiCckrates ++ wifiOfdmrates
    else []
  Bytes.overwrite (List.replicate ndis80211LengthRatesEx 0) 0 rates

/-- A pass of the loop over the rates. -/
def filterStep (keep : RateSection) (newRate : Bytes) (rate : UInt8) : Bytes :=
  if keep.keeps rate then
    newRate ++ [if rtwIsBasicRateOfdm rate then rate ||| ieee80211BasicRateMask else rate]
  else newRate

def rtwFilterSuppportRateie (w : WlanBssidEx) (keep : RateSection) : RateOutcome :=
  let o := rtwGetIe (w.ies.drop beaconIeOffset) supportedratesIe (w.ieLength - beaconIeOffset)
  match o.found.join with
  | none => { network := w }
  | some target =>
    let p := beaconIeOffset + target
    let newRate := (w.ies.read (p + 2) o.len).foldl (filterStep keep) []
    let idx := newRate.length
    let ies := (w.ies.overwrite (p + 1) [UInt8.ofNat idx]).overwrite (p + 2) newRate
    let remainIes := p + 2 + o.len
    let remainLen := uintSub w.ieLength remainIes
    { network :=
        { w with
          ies := ies.overwrite (p + 2 + idx) (ies.read remainIes remainLen)
          ieLength := w.ieLength - (o.len - idx) }
      ieWrites := (p + 1) :: (List.range' (p + 2) idx ++ List.range' (p + 2 + idx) remainLen)
      -- the array is cleared first
      newRateWrites := List.range ndis80211LengthRatesEx ++ List.range idx }

def removeLog (eid : UInt8) (oui : Bytes) (w : RemoveState) : List ℕ :=
  let o := rtwGetIeEx (w.ies.drop w.start) w.searchLen eid oui false true
  match o.found.join with
  | none => []
  | some targetIe =>
    if o.len = 0 then []
    else List.range' (w.start + targetIe) (uintSub w.searchLen (targetIe + o.len))

def rtwIesRemoveIeWrites (w : IesState) (offset : ℕ) (eid : UInt8) (oui : Bytes) : List ℕ :=
  if w.iesLen ≤ offset then []
  else
    Loop.trace (removeLog eid oui) (removeBody eid oui) (w.iesLen + 1)
      { w with ret := false, start := offset, searchLen := w.iesLen - offset }

/-- The end of `rtw_update_rate_bymode`: the network type, and its rates. -/
def rateDone (o : RateOutcome) (networkType : ℕ) : RateOutcome × ℕ :=
  ({ o with network := { o.network with supportedRates := rtwSetSupportedRate networkType } },
    networkType)

/-- `rtw_update_rate_bymode`; `none` if the removal does not end. -/
def rtwUpdateRateBymode (w : WlanBssidEx) (mode : ℕ) : Option (RateOutcome × ℕ) :=
  let networkIelen := w.ieLength
  if mode = wireless11b then
    let o := rtwFilterSuppportRateie w .cck
    let ext := rtwGetIe (o.network.ies.drop beaconIeOffset) extSupportedratesIe
      (o.network.ieLength - beaconIeOffset)
    match ext.found.join with
    | none => some (rateDone o wireless11b)
    | some _ =>
      -- the length is the one from before the rates were filtered
      let stale : IesState := { ies := o.network.ies, iesLen := networkIelen }
      (rtwIesRemoveIe stale beaconIeOffset extSupportedratesIe []).map fun r =>
        rateDone
          { network := { o.network with ies := r.ies, ieLength := o.network.ieLength - ext.len }
            ieWrites := o.ieWrites ++
              rtwIesRemoveIeWrites stale beaconIeOffset extSupportedratesIe []
            newRateWrites := o.newRateWrites }
          wireless11b
  else if 14 < w.dsConfig then some (rateDone (rtwFilterSuppportRateie w .ofdm) wireless11a)
  else if mode &&& wireless11b = 0 then
    some (rateDone (rtwFilterSuppportRateie w .ofdm) wireless11g)
  else some (rateDone { network := w } wireless11bg)

def rateOf (rate : UInt8) : UInt8 := rate &&& 0x7f

/-- **Only the rates of a kind are left in the supported-rates element**, in their order. -/
inductive Reduced (keep : RateSection) : List Elem → List Elem → Prop
  | nil : Reduced keep [] []
  | rates {e e' : Elem} (L : List Elem) (he : e.id = supportedratesIe)
      (he' : e'.id = supportedratesIe)
      (hrates : e'.body.map rateOf = (e.body.filter keep.keeps).map rateOf) :
      Reduced keep (e :: L) (e' :: L)
  | other {e : Elem} {L L' : List Elem} (he : e.id ≠ supportedratesIe) (hL : Reduced keep L L') :
      Reduced keep (e :: L) (e :: L')

def keptSection (mode dsConfig : ℕ) : Option RateSection :=
  if mode = wireless11b then some .cck
  else if 14 < dsConfig ∨ mode &&& wireless11b = 0 then some .ofdm
  else none

def Restricted (mode dsConfig : ℕ) (L L' : List Elem) : Prop :=
  ∃ L₁, (∀ keep ∈ keptSection mode dsConfig, Reduced keep L L₁) ∧
    (keptSection mode dsConfig = none → L₁ = L) ∧
    L' = if mode = wireless11b then kept extSupportedratesIe [] L₁ else L₁

/-- **The elements are kept.** -/
structure RatesKept (mode : ℕ) (pre : Bytes) (L : List Elem) (w : WlanBssidEx) (o : RateOutcome) :
    Prop where
  elems : ∃ L', Restricted mode w.dsConfig L L' ∧ Holds pre L' o.network.elems
  ieWrites : ∀ a ∈ o.ieWrites, a < w.ieLength
  newRateWrites : ∀ i ∈ o.newRateWrites, i < ndis80211LengthRatesEx

def Few (keep : RateSection) (L : List Elem) : Prop :=
  ∀ e ∈ L.find? (fun x => x.id = supportedratesIe),
    (e.body.filter keep.keeps).length ≤ ndis80211LengthRatesEx

structure RatesFit (mode dsConfig : ℕ) (L : List Elem) : Prop where
  few : ∀ keep ∈ keptSection mode dsConfig, Few keep L
  noExt : mode = wireless11b → ∀ e ∈ L, e.id ≠ extSupportedratesIe

variable {pre rest : Bytes} {L L' L₁ A B : List Elem} {e : Elem} {w : WlanBssidEx}
  {keep : RateSection} {mode : ℕ}

/-! ## The filter -/

def markRate (rate : UInt8) : UInt8 :=
  if rtwIsBasicRateOfdm rate then rate ||| ieee80211BasicRateMask else rate

theorem rateOf_markRate (rate : UInt8) : rateOf (markRate rate) = rateOf rate := by
  unfold markRate
  split_ifs
  · have hmask : ieee80211BasicRateMask &&& 0x7f = 0 := by decide
    have hdistrib : (rate ||| ieee80211BasicRateMask) &&& 0x7f =
        (rate &&& 0x7f) ||| (ieee80211BasicRateMask &&& 0x7f) := by
      refine UInt8.toBitVec_inj.mp (BitVec.eq_of_getElem_eq fun i hi => ?_)
      simp [Bool.and_or_distrib_right]
    rw [rateOf, hdistrib, hmask, UInt8.or_zero, rateOf]
  · rfl

theorem foldl_filterStep (keep : RateSection) (rates newRate : Bytes) :
    rates.foldl (filterStep keep) newRate = newRate ++ (rates.filter keep.keeps).map markRate := by
  induction rates generalizing newRate with
  | nil => exact (List.append_nil newRate).symm
  | cons rate rates ih =>
    rw [List.foldl_cons, ih, filterStep]
    by_cases hkeep : keep.keeps rate = true
    · rw [if_pos hkeep, List.filter_cons_of_pos hkeep, List.map_cons, List.append_assoc]
      rfl
    · rw [if_neg hkeep, List.filter_cons_of_neg hkeep]

def keptRates (keep : RateSection) (e : Elem) : Bytes := (e.body.filter keep.keeps).map markRate

theorem length_keptRates (keep : RateSection) (e : Elem) :
    (keptRates keep e).length = (e.body.filter keep.keeps).length :=
  List.length_map _

theorem length_keptRates_le (keep : RateSection) (e : Elem) :
    (keptRates keep e).length ≤ e.body.length :=
  (length_keptRates keep e).trans_le (List.length_filter_le _ _)

theorem overwrite_header (p : Bytes) (e : Elem) {content : Bytes} (h : content.length < 256)
    (r : Bytes) :
    ((p ++ (e.bytes ++ r)).overwrite (p.length + 1) [UInt8.ofNat content.length]).overwrite
        (p.length + 2) content =
      p ++ ((e.withBody content h).bytes ++ (e.body ++ r).drop content.length) := by
  have hhead : p ++ (e.bytes ++ r) =
      (p ++ [e.id]) ++ ([UInt8.ofNat e.body.length] ++ (e.body ++ r)) := by
    simp [Elem.bytes]
  have hmid : (p ++ [e.id]) ++ ([UInt8.ofNat content.length] ++ (e.body ++ r)) =
      (p ++ [e.id, UInt8.ofNat content.length]) ++ (e.body ++ r) := by
    simp
  rw [hhead, overwrite_append_of_eq (by simp)]
  change Bytes.overwrite ((p ++ [e.id]) ++ ([UInt8.ofNat content.length] ++ (e.body ++ r))) _ _ = _
  rw [hmid, overwrite_append_of_eq (by simp)]
  simp [Elem.bytes, Elem.withBody]

/-- Where a search of the elements of a network begins, and how far it goes. -/
theorem Holds.search (h : Holds pre L w.elems) (hpre : pre.length = beaconIeOffset) :
    ∃ rest, w.ies = pre ++ (encode L ++ rest) ∧ w.ies.drop beaconIeOffset = encode L ++ rest ∧
      w.ieLength - beaconIeOffset = (encode L).length := by
  obtain ⟨⟨rest, hies⟩, hlen⟩ := h
  replace hies : w.ies = pre ++ (encode L ++ rest) := hies
  replace hlen : w.ieLength = pre.length + (encode L).length := hlen
  refine ⟨rest, hies, ?_, ?_⟩
  · rw [hies, ← hpre, List.drop_left]
  · rw [hlen, hpre, Nat.add_sub_cancel_left]

theorem filter_of_none (h : Holds pre L w.elems) (hpre : pre.length = beaconIeOffset)
    (hL : ∀ x ∈ L, x.id ≠ supportedratesIe) :
    rtwFilterSuppportRateie w keep = { network := w } := by
  obtain ⟨rest, -, hdrop, hsearch⟩ := h.search hpre
  have hfound := getIe_none hL rest
  rw [rtwFilterSuppportRateie, hdrop, hsearch, hfound]

/-- **What the filter does to a list.** -/
theorem filter_of_some (h : Holds pre (A ++ e :: B) w.elems) (hpre : pre.length = beaconIeOffset)
    (hA : ∀ x ∈ A, x.id ≠ supportedratesIe) (he : e.id = supportedratesIe)
    (hshort : (keptRates keep e).length < 256) :
    let o := rtwFilterSuppportRateie w keep
    Holds pre (A ++ e.withBody (keptRates keep e) hshort :: B) o.network.elems ∧
      (∀ a ∈ o.ieWrites, a < w.ieLength) ∧
      o.newRateWrites =
        List.range ndis80211LengthRatesEx ++ List.range (e.body.filter keep.keeps).length := by
  obtain ⟨rest, hies, hdrop, hsearch⟩ := h.search hpre
  have hlen : w.ieLength = pre.length + (encode (A ++ e :: B)).length := h.iesLen
  obtain ⟨hfound, holen⟩ := getIe_some hA he rest (B := B)
  have hsize : (encode (A ++ e :: B)).length =
      (encode A).length + (e.body.length + 2 + (encode B).length) := by
    rw [encode_append, encode_cons, List.length_append, List.length_append, Elem.length_bytes]
  -- the buffer in front of the element, and behind it
  have hsplit : w.ies = (pre ++ encode A) ++ (e.bytes ++ (encode B ++ rest)) := by
    rw [hies, encode_append, encode_cons]
    simp only [List.append_assoc]
  have htarget : beaconIeOffset + (encode A).length = (pre ++ encode A).length := by
    rw [List.length_append, hpre]
  have hle := length_keptRates_le keep e
  have hrates : (w.ies.read ((pre ++ encode A).length + 2) e.body.length).foldl
      (filterStep keep) [] = keptRates keep e := by
    rw [hsplit, read_body _ e _ le_rfl, List.take_length, foldl_filterStep, List.nil_append]
    rfl
  have hmoved : (e.body ++ (encode B ++ rest)).drop (keptRates keep e).length =
      e.body.drop (keptRates keep e).length ++ (encode B ++ rest) :=
    List.drop_append_of_le_length hle
  have hnew := overwrite_header (pre ++ encode A) e hshort (encode B ++ rest)
  rw [← hsplit, hmoved] at hnew
  have hremain : uintSub w.ieLength ((pre ++ encode A).length + 2 + e.body.length) =
      (encode B).length := by
    rw [List.length_append, uintSub_of_le (by omega)]
    omega
  have hread : (pre ++ encode A ++ ((e.withBody (keptRates keep e) hshort).bytes ++
      (e.body.drop (keptRates keep e).length ++ (encode B ++ rest)))).read
        ((pre ++ encode A).length + 2 + e.body.length) (encode B).length = encode B := by
    rw [← List.append_assoc, ← List.append_assoc]
    refine read_append_of_eq ?_ rfl
    simp only [List.length_append, Elem.length_bytes, List.length_drop]
    change _ = _ + ((keptRates keep e).length + 2) + _
    omega
  have hbehind : (pre ++ encode A).length + 2 + (keptRates keep e).length =
      (pre ++ encode A ++ (e.withBody (keptRates keep e) hshort).bytes).length := by
    simp only [List.length_append, Elem.length_bytes]
    exact Nat.add_right_comm _ 2 _
  have hfilter : rtwFilterSuppportRateie w keep =
      { network :=
          { w with
            ies := (pre ++ encode A ++ (e.withBody (keptRates keep e) hshort).bytes) ++
              (encode B ++ (e.body.drop (keptRates keep e).length ++
                (encode B ++ rest)).drop (encode B).length)
            ieLength := w.ieLength - (e.body.length - (keptRates keep e).length) }
        ieWrites := ((pre ++ encode A).length + 1) ::
          (List.range' ((pre ++ encode A).length + 2) (keptRates keep e).length ++
            List.range' ((pre ++ encode A).length + 2 + (keptRates keep e).length)
              (encode B).length)
        newRateWrites := List.range ndis80211LengthRatesEx ++
          List.range (keptRates keep e).length } := by
    rw [rtwFilterSuppportRateie, hdrop, hsearch, hfound]
    simp only [holen, htarget, hrates, hnew, hremain, hread]
    rw [← List.append_assoc (pre ++ encode A), overwrite_append_of_eq hbehind]
  rw [hfilter]
  refine ⟨⟨⟨(e.body.drop (keptRates keep e).length ++ (encode B ++ rest)).drop (encode B).length,
    ?_⟩, ?_⟩, ?_, ?_⟩
  · change _ ++ _ = _
    rw [encode_append, encode_cons]
    simp only [List.append_assoc]
  · change w.ieLength - _ = _
    rw [encode_append, encode_cons, List.length_append, List.length_append, Elem.length_bytes]
    change _ = _ + (_ + ((keptRates keep e).length + 2 + _))
    omega
  · intro a ha
    simp only [List.mem_cons, List.mem_append, List.mem_range'_1, List.length_append] at ha
    omega
  · rw [length_keptRates]

theorem Reduced.refl (keep : RateSection) (hL : ∀ x ∈ L, x.id ≠ supportedratesIe) :
    Reduced keep L L := by
  induction L with
  | nil => exact .nil
  | cons x L ih =>
    rw [List.forall_mem_cons] at hL
    exact .other hL.1 (ih hL.2)

theorem Reduced.append {e' : Elem} (hA : ∀ x ∈ A, x.id ≠ supportedratesIe)
    (h : Reduced keep (e :: B) (e' :: B)) : Reduced keep (A ++ e :: B) (A ++ e' :: B) := by
  induction A with
  | nil => exact h
  | cons x A ih =>
    rw [List.forall_mem_cons] at hA
    exact .other hA.1 (ih hA.2)

/-- What of an element counts for where the others are. -/
def Elem.shape (e : Elem) : UInt8 × ℕ := (e.id, e.body.length)

theorem Reduced.shapes (h : Reduced keep L L₁) (h' : Reduced keep L L') :
    L₁.map Elem.shape = L'.map Elem.shape := by
  induction h generalizing L' with
  | nil =>
    cases h'
    rfl
  | rates L he he' hrates =>
    cases h' with
    | rates _ _ hid hrates' =>
      have hlen := congrArg List.length (hrates.trans hrates'.symm)
      rw [List.length_map, List.length_map] at hlen
      rw [List.map_cons, List.map_cons, Elem.shape, Elem.shape, he', hid, hlen]
    | other hne => exact absurd he hne
  | other hne _ ih =>
    cases h' with
    | rates _ hid => exact absurd hid hne
    | other _ hL => exact congrArg (_ :: ·) (ih hL)

theorem length_encode_eq (L : List Elem) :
    (encode L).length = ((L.map Elem.shape).map fun s => s.2 + 2).sum := by
  induction L with
  | nil => rfl
  | cons e L ih =>
    rw [encode_cons, List.length_append, ih]
    rfl

theorem map_shape_kept (eid : UInt8) (L : List Elem) :
    (kept eid [] L).map Elem.shape = (L.map Elem.shape).filter fun s => s.1 ≠ eid := by
  induction L with
  | nil => rfl
  | cons e L ih =>
    by_cases he : e.id = eid
    · have hhits : e.Hits eid [] := ⟨he, List.nil_prefix⟩
      rw [kept, List.filter_cons_of_neg (by simpa using hhits), List.map_cons,
        List.filter_cons_of_neg (by simp [Elem.shape, he])]
      exact ih
    · have hhits : ¬e.Hits eid [] := fun h => he h.1
      rw [kept, List.filter_cons_of_pos (by simpa using hhits), List.map_cons, List.map_cons,
        List.filter_cons_of_pos (by simp [Elem.shape, he])]
      exact congrArg (_ :: ·) ih

theorem length_encode_kept_le (eid : UInt8) (L : List Elem) :
    (encode (kept eid [] L)).length ≤ (encode L).length :=
  (List.Sublist.flatMap List.filter_sublist Elem.bytes).length_le

theorem Reduced.mem_ext (h : Reduced keep L L₁) :
    (∃ x ∈ L₁, x.id = extSupportedratesIe) ↔ ∃ x ∈ L, x.id = extSupportedratesIe := by
  have hne : supportedratesIe ≠ extSupportedratesIe := by decide
  induction h with
  | nil => rfl
  | rates L he he' =>
    simp only [List.mem_cons, exists_eq_or_imp, he, he', hne, false_or]
  | other _ _ ih => simp only [List.mem_cons, exists_eq_or_imp, ih]

/-! ## The update -/

/-- **The filter reduces the supported rates**, and stays inside the array if they are few. -/
theorem filter_reduces (keep : RateSection) (h : Holds pre L w.elems)
    (hpre : pre.length = beaconIeOffset) :
    let o := rtwFilterSuppportRateie w keep
    ∃ L₁, Reduced keep L L₁ ∧ Holds pre L₁ o.network.elems ∧ (∀ a ∈ o.ieWrites, a < w.ieLength) ∧
      ((∀ i ∈ o.newRateWrites, i < ndis80211LengthRatesEx) ↔ Few keep L) := by
  rcases first_or_none (fun x => x.id = supportedratesIe) L with hnone | ⟨A, e, B, rfl, hA, he⟩
  · have hfind : L.find? (fun x => x.id = supportedratesIe) = none :=
      find_none hnone
    rw [filter_of_none h hpre hnone, Few, hfind]
    exact ⟨L, .refl keep hnone, h, by simp, by simp⟩
  · have hfind : (A ++ e :: B).find? (fun x => x.id = supportedratesIe) = some e :=
      find_first hA he
    have hshort := (length_keptRates_le keep e).trans_lt e.short
    obtain ⟨hholds, hie, hnew⟩ := filter_of_some h hpre hA he hshort
    refine ⟨A ++ e.withBody (keptRates keep e) hshort :: B, .append hA (.rates B he he ?_), hholds,
      hie, ?_⟩
    · change ((e.body.filter keep.keeps).map markRate).map rateOf = _
      rw [List.map_map]
      exact List.map_congr_left fun rate _ => rateOf_markRate rate
    · rw [hnew, Few, hfind]
      simp only [List.mem_append, List.mem_range, Option.mem_def, Option.some.injEq,
        forall_eq']
      constructor
      · intro hall
        by_contra hmany
        exact absurd (hall _ (.inr (Nat.not_le.mp hmany))) (Nat.lt_irrefl _)
      · rintro hfew i (hi | hi)
        · exact hi
        · exact hi.trans_le hfew

theorem ratesKept_filter (h : Holds pre L w.elems) (hpre : pre.length = beaconIeOffset)
    (hkeep : keptSection mode w.dsConfig = some keep)
    (hext : mode = wireless11b → ∀ e ∈ L, e.id ≠ extSupportedratesIe) (networkType : ℕ) :
    RatesKept mode pre L w (rateDone (rtwFilterSuppportRateie w keep) networkType).1 ↔
      RatesFit mode w.dsConfig L := by
  obtain ⟨L₁, hreduced, hholds, hie, hnew⟩ := filter_reduces keep h hpre
  have hstays : (if mode = wireless11b then kept extSupportedratesIe [] L₁ else L₁) = L₁ := by
    by_cases hmode : mode = wireless11b
    · rw [if_pos hmode]
      refine kept_of_none fun x hx hhits => ?_
      obtain ⟨y, hy, hid⟩ := hreduced.mem_ext.mp ⟨x, hx, hhits.1⟩
      exact hext hmode y hy hid
    · exact if_neg hmode
  constructor
  · intro hkept
    refine ⟨fun keep' hkeep' => ?_, hext⟩
    obtain rfl : keep = keep' := Option.some.inj (hkeep.symm.trans hkeep')
    exact hnew.mp hkept.newRateWrites
  · intro hfit
    refine ⟨⟨L₁, ⟨L₁, ?_, ?_, hstays.symm⟩, hholds⟩, hie, hnew.mpr (hfit.few keep hkeep)⟩
    · intro keep' hkeep'
      obtain rfl : keep = keep' := Option.some.inj (hkeep.symm.trans hkeep')
      exact hreduced
    · intro hnone
      rw [hkeep] at hnone
      exact absurd hnone (Option.some_ne_none keep)

theorem not_ratesKept_of_ext (h : Holds pre L w.elems) (hpre : pre.length = beaconIeOffset)
    (hext : ∃ e ∈ L, e.id = extSupportedratesIe) {o : RateOutcome} {networkType : ℕ}
    (hupdate : rtwUpdateRateBymode w wireless11b = some (o, networkType)) :
    ¬RatesKept wireless11b pre L w o := by
  rintro ⟨⟨L', ⟨L₂, hreduced₂, -, rfl⟩, -, hlen⟩, -, -⟩
  obtain ⟨L₁, hreduced, hholds, -, -⟩ := filter_reduces RateSection.cck h hpre
  replace hreduced₂ : Reduced .cck L L₂ := hreduced₂ .cck rfl
  obtain ⟨rest, -, hdrop, hsearch⟩ := hholds.search hpre
  -- the first element of extended rates
  rcases first_or_none (fun x => x.id = extSupportedratesIe) L₁ with hnone | ⟨A, e, B, rfl, hA, he⟩
  · obtain ⟨x, hx, hid⟩ := hreduced.mem_ext.mpr hext
    exact hnone x hx hid
  · have hlen₁ : (rtwFilterSuppportRateie w .cck).network.ieLength =
        pre.length + (encode (A ++ e :: B)).length := hholds.iesLen
    obtain ⟨hfound, holen⟩ := getIe_some hA he rest (B := B)
    rw [← hdrop, ← hsearch] at hfound holen
    rw [rtwUpdateRateBymode, if_pos rfl] at hupdate
    dsimp only at hupdate
    rw [hfound] at hupdate
    obtain ⟨r, -, hr⟩ := Option.map_eq_some_iff.mp hupdate
    have hlength :
        o.network.ieLength = pre.length + (encode (A ++ e :: B)).length - e.body.length := by
      have ho : _ = o := congrArg Prod.fst hr
      rw [← hlen₁, ← holen, ← ho]
      rfl
    -- the whole element is to go, and the others of its id too
    have hshapes := congrArg (List.filter fun s => s.1 ≠ extSupportedratesIe)
      (hreduced₂.shapes hreduced)
    rw [← map_shape_kept, ← map_shape_kept] at hshapes
    have hkept : (encode (kept extSupportedratesIe [] L₂)).length =
        (encode (kept extSupportedratesIe [] (A ++ e :: B))).length := by
      rw [length_encode_eq, hshapes, ← length_encode_eq]
    rw [kept_append_cons (fun x hx hhits => hA x hx hhits.1) ⟨he, List.nil_prefix⟩, encode_append,
      List.length_append] at hkept
    have hB := length_encode_kept_le extSupportedratesIe B
    rw [if_pos rfl] at hlen
    replace hlen : o.network.ieLength = _ := hlen
    rw [hlength, hkept, encode_append, encode_cons, List.length_append, List.length_append,
      Elem.length_bytes] at hlen
    omega

theorem update_of_noExt (h : Holds pre L w.elems) (hpre : pre.length = beaconIeOffset)
    (hext : ∀ e ∈ L, e.id ≠ extSupportedratesIe) :
    rtwUpdateRateBymode w wireless11b =
      some (rateDone (rtwFilterSuppportRateie w .cck) wireless11b) := by
  obtain ⟨L₁, hreduced, hholds, -, -⟩ := filter_reduces RateSection.cck h hpre
  have hnone : ∀ x ∈ L₁, x.id ≠ extSupportedratesIe := by
    intro x hx hid
    obtain ⟨y, hy, hid'⟩ := hreduced.mem_ext.mp ⟨x, hx, hid⟩
    exact hext y hy hid'
  obtain ⟨rest, -, hdrop, hsearch⟩ := hholds.search hpre
  have hfound := getIe_none hnone rest
  rw [← hdrop, ← hsearch] at hfound
  rw [rtwUpdateRateBymode, if_pos rfl]
  dsimp only
  rw [hfound]

theorem exists_rateDone {o : RateOutcome} {networkType : ℕ} {P : RateOutcome → Prop} :
    (∃ o' networkType', some (rateDone o networkType) = some (o', networkType') ∧ P o') ↔
      P (rateDone o networkType).1 := by
  constructor
  · rintro ⟨o', networkType', hdone, hP⟩
    rwa [Option.some.inj hdone]
  · exact fun hP => ⟨_, _, rfl, hP⟩

/-- **The elements are kept** exactly if the rates that stay fit the array, and no extended rates
are to be removed. -/
theorem ratesKept_iff (h : Holds pre L w.elems) (hpre : pre.length = beaconIeOffset) (mode : ℕ) :
    (∃ o networkType, rtwUpdateRateBymode w mode = some (o, networkType) ∧
      RatesKept mode pre L w o) ↔ RatesFit mode w.dsConfig L := by
  by_cases hmode : mode = wireless11b
  · subst hmode
    by_cases hext : ∃ e ∈ L, e.id = extSupportedratesIe
    · refine iff_of_false ?_ ?_
      · rintro ⟨o, networkType, hupdate, hkept⟩
        exact not_ratesKept_of_ext h hpre hext hupdate hkept
      · obtain ⟨e, he, hid⟩ := hext
        exact fun hfit => hfit.noExt rfl e he hid
    · replace hext : ∀ e ∈ L, e.id ≠ extSupportedratesIe := fun e he hid => hext ⟨e, he, hid⟩
      rw [update_of_noExt h hpre hext, exists_rateDone]
      exact ratesKept_filter h hpre rfl (fun _ => hext) wireless11b
  · have hext : mode = wireless11b → ∀ e ∈ L, e.id ≠ extSupportedratesIe := fun h => absurd h hmode
    rw [rtwUpdateRateBymode, if_neg hmode]
    by_cases hchannel : 14 < w.dsConfig
    · rw [if_pos hchannel, exists_rateDone]
      refine ratesKept_filter h hpre ?_ hext wireless11a
      rw [keptSection, if_neg hmode, if_pos (.inl hchannel)]
    · rw [if_neg hchannel]
      by_cases hofdm : mode &&& wireless11b = 0
      · rw [if_pos hofdm, exists_rateDone]
        refine ratesKept_filter h hpre ?_ hext wireless11g
        rw [keptSection, if_neg hmode, if_pos (.inr hofdm)]
      · -- both kinds of rates stay
        have hnone : keptSection mode w.dsConfig = none := by
          rw [keptSection, if_neg hmode, if_neg (not_or.mpr ⟨hchannel, hofdm⟩)]
        rw [if_neg hofdm, exists_rateDone]
        refine iff_of_true ⟨⟨L, ⟨L, ?_, fun _ => rfl, (if_neg hmode).symm⟩, h⟩, ?_, ?_⟩
          ⟨?_, hext⟩
        · simp [hnone]
        · simp [rateDone]
        · simp [rateDone]
        · simp [hnone]

def mixedRates : List Elem :=
  [⟨supportedratesIe, [0x82, 0x84, 0x0c, 0x12], by decide⟩,
    ⟨extSupportedratesIe, [0x30, 0x48], by decide⟩, ⟨3, [1], by decide⟩]

def mixedNetwork (channel : ℕ) : WlanBssidEx where
  ies := List.replicate 12 0 ++ (encode mixedRates ++ [0])
  ieLength := 25
  dsConfig := channel
  supportedRates := []

/-- On channel 36 the two OFDM rates stay. -/
theorem ratesKept_iff_mixed :
    ∃ o networkType, rtwUpdateRateBymode (mixedNetwork 36) wireless11a = some (o, networkType) ∧
      RatesKept wireless11a (List.replicate 12 0) mixedRates (mixedNetwork 36) o := by
  have hholds : Holds (List.replicate 12 0) mixedRates (mixedNetwork 36).elems :=
    ⟨⟨[0], rfl⟩, by decide⟩
  refine (ratesKept_iff hholds (by decide) wireless11a).mpr ⟨?_, fun hmode => ?_⟩
  · intro keep hkeep e he
    obtain rfl : RateSection.ofdm = keep := Option.some.inj hkeep
    obtain rfl : _ = e := Option.some.inj he
    decide
  · exact absurd hmode (by decide)

/-- **An 802.11b network** whose extended-rates element is removed keeps two bytes too many. -/
theorem not_ratesKept :
    ¬∀ (w : WlanBssidEx) (mode : ℕ) (pre : Bytes) (L : List Elem), pre.length = beaconIeOffset →
      Holds pre L w.elems →
      ∃ o networkType, rtwUpdateRateBymode w mode = some (o, networkType) ∧
        RatesKept mode pre L w o := by
  intro h
  have hholds : Holds (List.replicate 12 0) mixedRates (mixedNetwork 1).elems :=
    ⟨⟨[0], rfl⟩, by decide⟩
  obtain ⟨o, networkType, hupdate, hkept⟩ := h _ wireless11b _ _ (by decide) hholds
  have hext : ∃ e ∈ mixedRates, e.id = extSupportedratesIe :=
    ⟨⟨extSupportedratesIe, [0x30, 0x48], by decide⟩, by simp [mixedRates], rfl⟩
  exact not_ratesKept_of_ext hholds (by decide) hext hupdate hkept

end Rtl88x2eu.Ie
