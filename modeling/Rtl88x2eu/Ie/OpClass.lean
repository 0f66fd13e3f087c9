import Rtl88x2eu.Recv.Attrib

/-!
# Operating classes

`rtw_get_bw_offset_by_op_class_ch` of `rtw_rf.c`: the width and the offset of an operating class on
a channel, in the table with the classes of 2.4 GHz and 5 GHz.

## Main definitions

* `rtwGetBwOffsetByOpClassCh`, `classBwOffset`

## Main results

* `rtwGetBwOffsetByOpClassCh_of_some`
-/

namespace Rtl88x2eu.Ie

inductive OpcBw
  | bw20 | bw40plus | bw40minus | bw40 | bw80 | bw160 | bw80p80
  deriving DecidableEq

def opcBwToChWidth : OpcBw → UInt8
  | .bw20 => 0
  | .bw40plus | .bw40minus | .bw40 => 1
  | .bw80 => 2
  | .bw160 => 3
  | .bw80p80 => 4

/-- `struct op_class_t`, without the channels: the band is 2.4 GHz, or 5 GHz. -/
structure OpClass where
  classId : UInt8
  on24G : Bool
  bw : OpcBw

def globalOpClass : List OpClass :=
  [⟨81, true, .bw20⟩, ⟨82, true, .bw20⟩, ⟨83, true, .bw40plus⟩, ⟨84, true, .bw40minus⟩,
    ⟨115, false, .bw20⟩, ⟨116, false, .bw40plus⟩, ⟨117, false, .bw40minus⟩,
    ⟨118, false, .bw20⟩, ⟨119, false, .bw40plus⟩, ⟨120, false, .bw40minus⟩,
    ⟨121, false, .bw20⟩, ⟨122, false, .bw40plus⟩, ⟨123, false, .bw40minus⟩,
    ⟨124, false, .bw20⟩, ⟨125, false, .bw20⟩, ⟨126, false, .bw40plus⟩, ⟨127, false, .bw40minus⟩,
    ⟨128, false, .bw80⟩, ⟨129, false, .bw160⟩]

def getGlobalOpClassById (gid : UInt8) : Option OpClass :=
  globalOpClass.find? fun opc => opc.classId = gid

def chanOffsetNoExt : UInt8 := 0

/-- `CHAN_OFFSET_UPPER`, which is `HAL_PRIME_CHNL_OFFSET_LOWER`. -/
def chanOffsetUpper : UInt8 := 1

/-- `CHAN_OFFSET_LOWER`, which is `HAL_PRIME_CHNL_OFFSET_UPPER`. -/
def chanOffsetLower : UInt8 := 2

/-- `rtw_get_offset_by_chbw_2g`; `none` if it is not valid. -/
def rtwGetOffsetByChbw2g (ch bw offset : UInt8) : Option UInt8 :=
  if 2 ≤ bw ∨ ch < 1 ∨ 14 < ch then none
  else if bw = 0 then some chanOffsetNoExt
  else if 1 ≤ ch ∧ ch ≤ 4 then some chanOffsetUpper
  else if 5 ≤ ch ∧ ch ≤ 9 then
    -- both are valid, the input is obeyed
    if offset = chanOffsetUpper ∨ offset = chanOffsetLower then some offset
    else some chanOffsetLower
  else if 10 ≤ ch ∧ ch ≤ 13 then some chanOffsetLower
  else none

def upperChannels : List UInt8 :=
  [20, 28, 36, 44, 52, 60, 68, 76, 84, 92, 100, 108, 116, 124, 132, 140, 149, 157, 165, 173, 181,
    189, 197, 205, 213, 221, 229, 237, 245, 253]

def lowerChannels : List UInt8 :=
  [16, 24, 32, 40, 48, 56, 64, 72, 80, 88, 96, 104, 112, 120, 128, 136, 144, 153, 161, 169, 177,
    185, 193, 201, 209, 217, 225, 233, 241, 249]

/-- `rtw_get_offset_by_chbw_5g`; `none` if it is not valid. -/
def rtwGetOffsetByChbw5g (ch bw : UInt8) : Option UInt8 :=
  if ch < 16 ∨ 253 < ch then none
  else if ch ∈ upperChannels then
    some (if 1 ≤ bw ∧ bw ≤ 3 then chanOffsetUpper else chanOffsetNoExt)
  else if ch ∈ lowerChannels then
    some (if 1 ≤ bw ∧ bw ≤ 3 then chanOffsetLower else chanOffsetNoExt)
  else none

def OpClass.named (opc : OpClass) (offset : UInt8) : UInt8 :=
  match opc.bw with
  | .bw40plus => chanOffsetUpper
  | .bw40minus => chanOffsetLower
  | _ => offset

/-- `rtw_get_offset_by_bchbw`; `none` if it is not valid. -/
def rtwGetOffsetByBchbw (opc : OpClass) (ch bw offset : UInt8) : Option UInt8 :=
  if opc.on24G then rtwGetOffsetByChbw2g ch bw offset else rtwGetOffsetByChbw5g ch bw

/-- What is left behind, from what was there before. -/
def rtwGetBwOffsetByOpClassCh (gid ch bw offset : UInt8) : UInt8 × UInt8 :=
  match getGlobalOpClassById gid with
  | none => (bw, offset)
  | some opc =>
    let bw := opcBwToChWidth opc.bw
    let offset := opc.named offset
    (bw, (rtwGetOffsetByBchbw opc ch bw offset).getD offset)

/-- The width and the offset, if the class and the channel are known. -/
def classBwOffset (gid ch : UInt8) : Option (UInt8 × UInt8) :=
  (getGlobalOpClassById gid).bind fun opc =>
    (rtwGetOffsetByBchbw opc ch (opcBwToChWidth opc.bw) (opc.named 0)).map fun offset =>
      (opcBwToChWidth opc.bw, offset)

theorem named_of_on24G {opc : OpClass} (h : opc ∈ globalOpClass) (h24 : opc.on24G = true) :
    opc.bw = .bw20 ∨ opc.bw = .bw40plus ∨ opc.bw = .bw40minus := by
  have hall : ∀ opc ∈ globalOpClass, opc.on24G = true →
      opc.bw = .bw20 ∨ opc.bw = .bw40plus ∨ opc.bw = .bw40minus := by
    unfold globalOpClass
    simp
  exact hall opc h h24

theorem rtwGetOffsetByBchbw_named {opc : OpClass} (h : opc ∈ globalOpClass) (ch offset : UInt8) :
    rtwGetOffsetByBchbw opc ch (opcBwToChWidth opc.bw) (opc.named offset) =
      rtwGetOffsetByBchbw opc ch (opcBwToChWidth opc.bw) (opc.named 0) := by
  unfold rtwGetOffsetByBchbw
  cases h24 : opc.on24G with
  | false => rfl
  | true =>
    unfold OpClass.named
    rcases named_of_on24G h h24 with hbw | hbw | hbw
    · rw [hbw]
      rfl
    · rw [hbw]
    · rw [hbw]

/-- These are left behind, whatever was there. -/
theorem rtwGetBwOffsetByOpClassCh_of_some {gid ch bw offset : UInt8} {c : UInt8 × UInt8}
    (h : classBwOffset gid ch = some c) : rtwGetBwOffsetByOpClassCh gid ch bw offset = c := by
  unfold classBwOffset at h
  unfold rtwGetBwOffsetByOpClassCh
  cases hopc : getGlobalOpClassById gid with
  | none =>
    rw [hopc] at h
    cases h
  | some opc =>
    have hmem : opc ∈ globalOpClass := List.mem_of_find?_eq_some hopc
    rw [hopc, Option.bind_some, Option.map_eq_some_iff] at h
    obtain ⟨o, ho, rfl⟩ := h
    dsimp only
    rw [rtwGetOffsetByBchbw_named hmem, ho, Option.getD_some]

end Rtl88x2eu.Ie
