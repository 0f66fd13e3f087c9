import Mathlib.Data.Finset.Card
import Rtl88x2eu.Lib.Transition
import Rtl88x2eu.Recv.Attrib

/-!
# The protection an access point announces

`rtw_ap.c`. An access point counts the associated stations that cannot do this or that: those
without ERP rates, without a short preamble, without HT, and so on. Every station is marked for what
it was counted for. The counters say what the ERP element and the HT operation element of the beacon
announce.

## Main definitions

* `CapMark`, `StaCaps.has`: what a station is counted for
* `ApSta.assign`: a mark with its counter
* `bssCapUpdateOnStaJoin`, `bssCapUpdateOnStaLeave`, `rtwProcessPublicActBsscoex`,
  `rtwApCheckScan`: the changes
* `updateBcnErpinfoIe`, `rtwHtOperationUpdate`, `updateBcnHtinfoIe`: the announcements
* `Protected`, `ProtectionOk`

## Main results

* `Tally.assign`: a mark and its counter change together
* `updateBcnHtinfoIe_right`, `assignNonErp_right`: one announcement
* `protected_of_meets`: runs
-/

namespace Rtl88x2eu.Protection

/-- The marks of a station, each with a counter: `no_short_preamble_set` with
`num_sta_no_short_preamble`, and so on. -/
inductive CapMark
  | noShortPreamble | nonErp | noShortSlotTime | noHt | htNoGf | ht20mhz
deriving DecidableEq

/-- The flags and capabilities of a station: `WLAN_STA_SHORT_PREAMBLE`, `WLAN_STA_NONERP`,
`WLAN_STA_HT`, `WLAN_CAPABILITY_SHORT_SLOT`, and three bits of its HT capabilities. -/
structure StaCaps where
  shortPreamble : Bool := true
  nonErp : Bool := false
  shortSlot : Bool := true
  ht : Bool := true
  grnFld : Bool := true
  supWidth : Bool := true
  intolerant40mhz : Bool := false
deriving DecidableEq

/-- What a station is to be counted for. -/
def StaCaps.has (f : StaCaps) : CapMark → Bool
  | .noShortPreamble => !f.shortPreamble
  | .nonErp => f.nonErp
  | .noShortSlotTime => !f.shortSlot
  | .noHt => !f.ht
  | .htNoGf => f.ht && !f.grnFld
  | .ht20mhz => f.ht && !f.supWidth

/-- The stations of an access point: which are associated, their capabilities and marks, and the
counters. -/
structure ApSta where
  joined : Finset ℕ := ∅
  caps : ℕ → StaCaps := fun _ => {}
  marks : CapMark → ℕ → Bool := fun _ _ => false
  num : CapMark → ℤ := fun _ => 0

namespace ApSta

variable (s : ApSta)

/-- A station is associated, or once more, with new capabilities. -/
def enter (i : ℕ) (f : StaCaps) : ApSta :=
  { s with joined := insert i s.joined, caps := Function.update s.caps i f }

/-- A station is gone. -/
def leave (i : ℕ) : ApSta := { s with joined := s.joined.erase i }

def assign (i : ℕ) (m : CapMark) (b : Bool) : ApSta :=
  if s.marks m i = b then s
  else
    { s with
      marks := Function.update s.marks m (Function.update (s.marks m) i b)
      num := Function.update s.num m (s.num m + if b then 1 else -1) }

end ApSta

/-! ## Beacon -/

structure ErpInfo where
  nonErpPresent : Bool := false
  useProtection : Bool := false
  barkerPreambleMode : Bool := false
deriving DecidableEq

structure HtOpMode where
  opMode : ℕ := 0
  nonGfDevsPresent : Bool := false
  nonHtStaPresent : Bool := false
deriving DecidableEq

/-- The HT operation element, where the driver changes it. -/
structure HtInfo where
  secondaryChnlOffset : ℕ := 0
  staChlWidth : Bool := false
  htOpMode : HtOpMode := {}
deriving DecidableEq

def opModePure : ℕ := 0
def opModeMayBeLegacyStas : ℕ := 1
def opMode20mhzHtStaAssoced : ℕ := 2
def opModeMixed : ℕ := 3

structure ApCfg where
  /-- `ht_enable` of the registry and `is_supported_ht`. -/
  htEnable : Bool := true
  htOption : Bool := true
  /-- `IEEE80211_HT_CAP_SUP_WIDTH` of the access point's own capabilities. -/
  supWidth : Bool := true
  /-- `ERP_enable`, and the beacon has an ERP element that is not empty. -/
  erpElem : Bool := true
  /-- `HT_info_enable`, and the beacon has an HT operation element that is not empty. -/
  htInfoElem : Bool := true
  curChannel : ℕ := 1
  /-- `cur_bwmode` is 40 MHz at least, and its `HAL_PRIME_CHNL_OFFSET_LOWER`. -/
  bw40 : Bool := true
  offsetLower : Bool := true

/-- What the beacon said after `update_bcn_erpinfo_ie`, and two counters at that time. -/
structure ErpUpdate where
  element : Option ErpInfo
  numNonErp : ℤ
  numNoShortPreamble : ℤ

/-- What the beacon said after `update_bcn_htinfo_ie`, and what there was to say it of. -/
structure HtUpdate where
  element : Option HtInfo
  numNoHt : ℤ
  numHtNoGf : ℤ
  numHt20mhz : ℤ
  olbcHt : Bool

/-- The protection of an access point. -/
structure ApState where
  sta : ApSta := {}
  intolerantSet : ℕ → Bool := fun _ => false
  num40mhzIntolerant : ℤ := 0
  ht20mhzWidthReq : Bool := false
  htIntolerantChReported : Bool := false
  swTo20mhz : Bool := false
  olbc : Bool := false
  olbcHt : Bool := false
  htOpMode : HtOpMode := {}
  erpInfo : ErpInfo := {}
  htInfo : HtInfo := {}
  erpUpdates : List ErpUpdate := []
  htUpdates : List HtUpdate := []

variable (c : ApCfg)

def updateBcnErpinfoIe (s : ApState) : ApState :=
  let e : ErpInfo :=
    if c.erpElem then
      { nonErpPresent := s.sta.num .nonErp == 1
        useProtection := s.sta.num .nonErp == 1
        barkerPreambleMode := decide (0 < s.sta.num .noShortPreamble) }
    else s.erpInfo
  { s with
    erpInfo := e
    erpUpdates := s.erpUpdates ++
      [⟨if c.erpElem then some e else none, s.sta.num .nonErp, s.sta.num .noShortPreamble⟩] }

/-- The two fields of the channel width in `update_bcn_htinfo_ie`. -/
def switchWidth (s : ApState) : ApState :=
  let narrow := 0 < s.num40mhzIntolerant ∨ s.ht20mhzWidthReq ∨ s.htIntolerantChReported ∨ s.olbc
  if !s.swTo20mhz ∧ c.curChannel ≤ 14 then
    if narrow then
      { s with
        htInfo := { s.htInfo with secondaryChnlOffset := 0, staChlWidth := false }
        swTo20mhz := true }
    else s
  else if s.num40mhzIntolerant = 0 ∧ !s.ht20mhzWidthReq ∧ !s.htIntolerantChReported ∧ !s.olbc ∧
      c.bw40 then
    { s with
      htInfo := { s.htInfo with
        secondaryChnlOffset := if c.offsetLower then 1 else 3, staChlWidth := true }
      swTo20mhz := false }
  else s

/-- What `update_bcn_htinfo_ie` leaves in the beacon, in a state. -/
def htSnapshot (element : Option HtInfo) (s : ApState) : HtUpdate :=
  ⟨element, s.sta.num .noHt, s.sta.num .htNoGf, s.sta.num .ht20mhz, s.olbcHt⟩

def noteHt (element : Option HtInfo) (s : ApState) : ApState :=
  { s with htUpdates := s.htUpdates ++ [htSnapshot element s] }

def updateBcnHtinfoIe (s : ApState) : ApState :=
  if !c.htOption then s
  else if !c.htInfoElem then noteHt none s
  else
    let s := switchWidth c s
    let info : HtInfo := { s.htInfo with htOpMode := s.htOpMode }
    noteHt (some info) { s with htInfo := info }

/-- The operation mode that `rtw_ht_operation_update` settles on. -/
def newOpMode (s : ApState) : ℕ :=
  if s.sta.num .noHt ≠ 0 then opModeMixed
  else if c.supWidth ∧ s.sta.num .ht20mhz ≠ 0 then opMode20mhzHtStaAssoced
  else if s.olbcHt then opModeMayBeLegacyStas
  else opModePure

def rtwHtOperationUpdate (s : ApState) : ApState :=
  if !c.htOption then s
  else
    { s with
      htOpMode :=
        { opMode := newOpMode c s
          nonGfDevsPresent := s.sta.num .htNoGf ≠ 0
          nonHtStaPresent := s.sta.num .noHt ≠ 0 || s.olbcHt } }

/-- The number that it returns is positive. -/
def opModeChanges (s : ApState) : Bool := (rtwHtOperationUpdate c s).htOpMode != s.htOpMode

/-- `rtw_ht_operation_update`, and the beacon if it changed anything. -/
def refreshHt (s : ApState) : ApState :=
  if opModeChanges c s then updateBcnHtinfoIe c (rtwHtOperationUpdate c s) else s

def firstOrLast (t : ApSta) (i : ℕ) (b : Bool) : Bool :=
  t.marks .nonErp i != b && (t.assign i .nonErp b).num .nonErp == if b then 1 else 0

def assignNonErp (s : ApState) (i : ℕ) (b : Bool) : ApState :=
  let s' : ApState := { s with sta := s.sta.assign i .nonErp b }
  if firstOrLast s.sta i b then updateBcnErpinfoIe c s' else s'

def ApState.assign (s : ApState) (i : ℕ) (m : CapMark) (b : Bool) : ApState :=
  { s with sta := s.sta.assign i m b }

def joinHt (s : ApState) (i : ℕ) (f : StaCaps) : ApState :=
  if f.ht then
    let s := s.assign i .noHt false
    let s := if !f.grnFld then s.assign i .htNoGf true else s
    let s := if !f.supWidth then s.assign i .ht20mhz true else s
    if f.intolerant40mhz ∧ !s.intolerantSet i then
      { s with
        intolerantSet := Function.update s.intolerantSet i true
        num40mhzIntolerant := s.num40mhzIntolerant + 1 }
    else s
  else s.assign i .noHt true

/-- `bss_cap_update_on_sta_join`, of a station with these flags and capabilities. -/
def bssCapUpdateOnStaJoin (s : ApState) (i : ℕ) (f : StaCaps) : ApState :=
  let s : ApState := { s with sta := s.sta.enter i f }
  let s := s.assign i .noShortPreamble (!f.shortPreamble)
  let s := assignNonErp c s i f.nonErp
  let s := s.assign i .noShortSlotTime (!f.shortSlot)
  if c.htEnable then refreshHt c (joinHt s i f) else s

/-- The marks that `bss_cap_update_on_sta_leave` clears. -/
def clearMarks (s : ApState) (i : ℕ) : ApState :=
  let s := s.assign i .noShortPreamble false
  let s := assignNonErp c s i false
  let s := s.assign i .noShortSlotTime false
  let s := s.assign i .htNoGf false
  let s := s.assign i .noHt false
  s.assign i .ht20mhz false

def bssCapUpdateOnStaLeave (s : ApState) (i : ℕ) : ApState :=
  let s := clearMarks c s i
  let s : ApState := { s with sta := s.sta.leave i }
  let s : ApState := if s.intolerantSet i then
      { s with
        intolerantSet := Function.update s.intolerantSet i false
        num40mhzIntolerant :=
          if 0 < s.num40mhzIntolerant then s.num40mhzIntolerant - 1 else s.num40mhzIntolerant }
    else s
  refreshHt c s

/-- A coexistence element, or a report of channels, says something new: a station does not tolerate
40 MHz, somebody asks for 20 MHz, or there are channels that are not to be used. -/
def coexIntolerant (s : ApState) (i : ℕ) (body : Bytes) : Bool :=
  body.u8 2 = 72 ∧ 0 < body.u8 3 ∧ body.u8 4 &&& 2 ≠ 0 ∧ !s.intolerantSet i

def coexWidthReq (s : ApState) (body : Bytes) : Bool :=
  body.u8 2 = 72 ∧ 0 < body.u8 3 ∧ body.u8 4 &&& 2 = 0 ∧ body.u8 4 &&& 4 ≠ 0 ∧ !s.ht20mhzWidthReq

def chlReport (s : ApState) (body : Bytes) : Bool :=
  8 < body.length ∧ body.u8 5 = 73 ∧ 0 < body.u8 6 ∧ !s.htIntolerantChReported

/-- What the access point notes of it. -/
def noteBsscoex (s : ApState) (i : ℕ) (body : Bytes) : ApState :=
  { s with
    intolerantSet :=
      if coexIntolerant s i body then Function.update s.intolerantSet i true else s.intolerantSet
    num40mhzIntolerant :=
      if coexIntolerant s i body then s.num40mhzIntolerant + 1 else s.num40mhzIntolerant
    ht20mhzWidthReq := s.ht20mhzWidthReq || coexWidthReq s body
    htIntolerantChReported := s.htIntolerantChReported || chlReport s body }

/-- `rtw_process_public_act_bsscoex`, on the body of a frame of a station that is known. -/
def rtwProcessPublicActBsscoex (s : ApState) (i : ℕ) (body : Bytes) : ApState :=
  if coexIntolerant s i body || coexWidthReq s body || chlReport s body then
    updateBcnHtinfoIe c (noteBsscoex s i body)
  else noteBsscoex s i body

/-- `rtw_ap_check_scan`, which found a network without HT capabilities or did not. -/
def rtwApCheckScan (s : ApState) (legacy : Bool) : ApState :=
  { s with
    olbc := s.olbc || legacy
    olbcHt := s.olbcHt || legacy
    sta := { s.sta with num := Function.update s.sta.num .noHt 0 } }

/-! ## Runs -/

inductive ApEvent
  | join (i : ℕ) (f : StaCaps)
  | leave (i : ℕ)
  | bsscoex (i : ℕ) (body : Bytes)
  | checkScan (legacy : Bool)

def apStep (s : ApState) : ApEvent → Option ApState
  | .join i f => some (bssCapUpdateOnStaJoin c s i f)
  | .leave i => some (bssCapUpdateOnStaLeave c s i)
  | .bsscoex i body => some (rtwProcessPublicActBsscoex c s i body)
  | .checkScan legacy => some (rtwApCheckScan s legacy)

def CountersRight (s : ApSta) : Prop :=
  ∀ m, s.num m = (s.joined.filter fun i => (s.caps i).has m).card

def ErpUpdate.Right (u : ErpUpdate) : Prop :=
  ∃ e, u.element = some e ∧ (e.nonErpPresent = true ↔ 0 < u.numNonErp) ∧
    (e.useProtection = true ↔ 0 < u.numNonErp) ∧
    (e.barkerPreambleMode = true ↔ 0 < u.numNoShortPreamble)

/-- The operation mode as the comment on `rtw_ht_operation_update` has it, where a station without
greenfield support is considered as one without HT. -/
def describedOpMode (u : HtUpdate) : ℕ :=
  if 0 < u.numNoHt ∨ 0 < u.numHtNoGf then opModeMixed
  else if c.supWidth ∧ 0 < u.numHt20mhz then opMode20mhzHtStaAssoced
  else if u.olbcHt then opModeMayBeLegacyStas
  else opModePure

def HtUpdate.Right (u : HtUpdate) : Prop :=
  ∃ e, u.element = some e ∧ e.htOpMode.opMode = describedOpMode c u

/-- **What the counters and the beacon are to be.** -/
structure Protected (s : ApState) : Prop where
  counters : CountersRight s.sta
  erp : ∀ u ∈ s.erpUpdates, u.Right
  ht : ∀ u ∈ s.htUpdates, u.Right c

def Greenfield (s : ApSta) : Prop :=
  (∃ i ∈ s.joined, (s.caps i).has .htNoGf = true) → ∃ i ∈ s.joined, (s.caps i).has .noHt = true

/-- The beacon has the elements, and its operation mode can be the one that is described. -/
structure Announces (s : ApSta) : Prop where
  erpElem : c.erpElem = true
  htInfoElem : c.htOption = true → c.htInfoElem = true
  greenfield : c.htOption = true → Greenfield s

/-- **The steps that keep it so**: a station that joins again does not lose what it was counted for
on HT; no station without greenfield support is associated without one that has no HT; a scan does
not find a station without HT in the count; and a coexistence frame finds the operation mode up to
date. -/
def ProtectionOk (s : ApState) : ApEvent → Prop
  | .join i f =>
    c.htEnable = true ∧
      (i ∈ s.sta.joined → (s.sta.caps i).has .htNoGf = true → f.has .htNoGf = true) ∧
      (i ∈ s.sta.joined → (s.sta.caps i).has .ht20mhz = true → f.has .ht20mhz = true) ∧
      Announces c (s.sta.enter i f)
  | .leave i => Announces c (s.sta.leave i)
  | .bsscoex _ _ => c.htOption = true → c.htInfoElem = true ∧ s.htOpMode.opMode = newOpMode c s
  | .checkScan _ => s.sta.num .noHt = 0

instance (s : ApSta) : Decidable (Greenfield s) := inferInstanceAs (Decidable (_ → _))

instance (s : ApSta) : Decidable (Announces c s) :=
  decidable_of_iff (c.erpElem = true ∧ (c.htOption = true → c.htInfoElem = true) ∧
    (c.htOption = true → Greenfield s)) ⟨fun h => ⟨h.1, h.2.1, h.2.2⟩, fun h => ⟨h.1, h.2, h.3⟩⟩

instance (s : ApState) : DecidablePred (ProtectionOk c s)
  | .join .. => inferInstanceAs (Decidable (_ ∧ _))
  | .leave i => inferInstanceAs (Decidable (Announces c (s.sta.leave i)))
  | .bsscoex .. => inferInstanceAs (Decidable (_ → _))
  | .checkScan _ => inferInstanceAs (Decidable (_ = _))

/-! ## Marks and counters -/

variable {c} {s : ApState} {t : ApSta} {i : ℕ} {m : CapMark} {b : Bool} {f : StaCaps}

/-- The counters count the marks of the associated stations, and no other station has marks. -/
structure Tally (t : ApSta) : Prop where
  num : ∀ m, t.num m = (t.joined.filter fun i => t.marks m i = true).card
  outside : ∀ m i, i ∉ t.joined → t.marks m i = false

@[simp] theorem assign_joined : (t.assign i m b).joined = t.joined := by
  unfold ApSta.assign
  split <;> rfl

@[simp] theorem assign_caps : (t.assign i m b).caps = t.caps := by
  unfold ApSta.assign
  split <;> rfl

theorem assign_marks (m' : CapMark) (j : ℕ) :
    (t.assign i m b).marks m' j = if m' = m ∧ j = i then b else t.marks m' j := by
  unfold ApSta.assign
  split
  next h =>
    split
    next hij => rw [hij.1, hij.2, h]
    next => rfl
  next h =>
    dsimp only
    rcases eq_or_ne m' m with rfl | hm
    · rw [Function.update_self]
      rcases eq_or_ne j i with rfl | hj
      · rw [Function.update_self, if_pos ⟨rfl, rfl⟩]
      · rw [Function.update_of_ne hj, if_neg fun h => hj h.2]
    · rw [Function.update_of_ne hm, if_neg fun h => hm h.1]

/-- A mark and its counter change together. -/
theorem Tally.assign (h : Tally t) (hi : i ∈ t.joined ∨ b = false) : Tally (t.assign i m b) := by
  by_cases hb : t.marks m i = b
  · rwa [ApSta.assign, if_pos hb]
  · have hmem : i ∈ t.joined := by
      refine hi.elim id fun hf => ?_
      by_contra hout
      exact hb ((h.outside m i hout).trans hf.symm)
    constructor
    · intro m'
      rw [assign_joined]
      simp only [assign_marks]
      rcases eq_or_ne m' m with rfl | hm
      · rw [ApSta.assign, if_neg hb]
        dsimp only
        rw [Function.update_self, h.num m']
        cases b with
        | true =>
          have hnew : i ∉ t.joined.filter fun j => t.marks m' j = true := fun hmem' =>
            hb (Finset.mem_filter.mp hmem').2
          have heq : (t.joined.filter fun j => (if m' = m' ∧ j = i then true else t.marks m' j) =
              true) = insert i (t.joined.filter fun j => t.marks m' j = true) := by
            ext j
            rcases eq_or_ne j i with rfl | hj <;> simp_all
          rw [heq, Finset.card_insert_of_notMem hnew, if_pos rfl]
          push_cast
          rfl
        | false =>
          have hold : i ∈ t.joined.filter fun j => t.marks m' j = true :=
            Finset.mem_filter.mpr ⟨hmem, by simpa using hb⟩
          have heq : (t.joined.filter fun j => (if m' = m' ∧ j = i then false else t.marks m' j) =
              true) = (t.joined.filter fun j => t.marks m' j = true).erase i := by
            ext j
            rcases eq_or_ne j i with rfl | hj <;> simp_all
          have hcard := Finset.card_erase_add_one hold
          rw [heq, if_neg Bool.false_ne_true]
          omega
      · rw [ApSta.assign, if_neg hb]
        simp only [hm, false_and, if_false, Function.update_of_ne hm, h.num m']
    · intro m' j hj
      rw [assign_joined] at hj
      rw [assign_marks, if_neg fun hij : m' = m ∧ j = i => hj (hij.2 ▸ hmem), h.outside m' j hj]

theorem Tally.enter (h : Tally t) (f : StaCaps) : Tally (t.enter i f) := by
  constructor
  · intro m
    change t.num m = ((insert i t.joined).filter fun j => t.marks m j = true).card
    rw [Finset.filter_insert, h.num m]
    split
    next hm =>
      have hmem : i ∈ t.joined := by
        by_contra hout
        rw [h.outside m i hout] at hm
        cases hm
      rw [Finset.insert_eq_of_mem (Finset.mem_filter.mpr ⟨hmem, hm⟩)]
    next => rfl
  · intro m j hj
    exact h.outside m j fun hmem => hj (Finset.mem_insert_of_mem hmem)

theorem Tally.leave (h : Tally t) (hclear : ∀ m, t.marks m i = false) : Tally (t.leave i) := by
  constructor
  · intro m
    change t.num m = ((t.joined.erase i).filter fun j => t.marks m j = true).card
    rw [h.num m, Finset.filter_erase, Finset.erase_eq_of_notMem]
    intro hmem
    have hset := (Finset.mem_filter.mp hmem).2
    rw [hclear m] at hset
    cases hset
  · intro m j hj
    rcases eq_or_ne j i with rfl | hne
    · exact hclear m
    · exact h.outside m j fun hmem => hj (Finset.mem_erase_of_ne_of_mem hne hmem)

def MarksRight (t : ApSta) : Prop := ∀ m, ∀ i ∈ t.joined, t.marks m i = (t.caps i).has m

theorem Tally.countersRight (h : Tally t) (hm : MarksRight t) : CountersRight t := by
  intro m
  rw [h.num m]
  congr 2
  ext j
  simp only [Finset.mem_filter, and_congr_right_iff]
  exact fun hj => by rw [hm m j hj]

theorem Tally.nonneg (h : Tally t) (m : CapMark) : 0 ≤ t.num m := by
  rw [h.num m]
  exact Int.natCast_nonneg _

theorem CountersRight.pos_iff (h : CountersRight t) (m : CapMark) :
    0 < t.num m ↔ ∃ i ∈ t.joined, (t.caps i).has m = true := by
  rw [h m, Int.natCast_pos, Finset.card_pos]
  exact ⟨fun ⟨i, hi⟩ => ⟨i, Finset.mem_filter.mp hi⟩, fun ⟨i, hi⟩ => ⟨i, Finset.mem_filter.mpr hi⟩⟩

/-! ## Announcements -/

section Frame

@[simp] theorem updateBcnErpinfoIe_sta : (updateBcnErpinfoIe c s).sta = s.sta := rfl

@[simp] theorem switchWidth_sta : (switchWidth c s).sta = s.sta := by
  unfold switchWidth
  dsimp only
  repeat' split
  all_goals rfl

@[simp] theorem switchWidth_olbcHt : (switchWidth c s).olbcHt = s.olbcHt := by
  unfold switchWidth
  dsimp only
  repeat' split
  all_goals rfl

@[simp] theorem switchWidth_htOpMode : (switchWidth c s).htOpMode = s.htOpMode := by
  unfold switchWidth
  dsimp only
  repeat' split
  all_goals rfl

@[simp] theorem switchWidth_htUpdates : (switchWidth c s).htUpdates = s.htUpdates := by
  unfold switchWidth
  dsimp only
  repeat' split
  all_goals rfl

@[simp] theorem switchWidth_erpUpdates : (switchWidth c s).erpUpdates = s.erpUpdates := by
  unfold switchWidth
  dsimp only
  repeat' split
  all_goals rfl

@[simp] theorem updateBcnHtinfoIe_sta : (updateBcnHtinfoIe c s).sta = s.sta := by
  unfold updateBcnHtinfoIe
  split
  · rfl
  · split
    · rfl
    · exact switchWidth_sta

@[simp] theorem updateBcnHtinfoIe_erpUpdates :
    (updateBcnHtinfoIe c s).erpUpdates = s.erpUpdates := by
  unfold updateBcnHtinfoIe
  split
  · rfl
  · split
    · rfl
    · exact switchWidth_erpUpdates

@[simp] theorem rtwHtOperationUpdate_sta : (rtwHtOperationUpdate c s).sta = s.sta := by
  unfold rtwHtOperationUpdate
  split <;> rfl

@[simp] theorem rtwHtOperationUpdate_erpUpdates :
    (rtwHtOperationUpdate c s).erpUpdates = s.erpUpdates := by
  unfold rtwHtOperationUpdate
  split <;> rfl

@[simp] theorem rtwHtOperationUpdate_htUpdates :
    (rtwHtOperationUpdate c s).htUpdates = s.htUpdates := by
  unfold rtwHtOperationUpdate
  split <;> rfl

@[simp] theorem refreshHt_sta : (refreshHt c s).sta = s.sta := by
  unfold refreshHt
  split
  · rw [updateBcnHtinfoIe_sta, rtwHtOperationUpdate_sta]
  · rfl

@[simp] theorem refreshHt_erpUpdates : (refreshHt c s).erpUpdates = s.erpUpdates := by
  unfold refreshHt
  split
  · rw [updateBcnHtinfoIe_erpUpdates, rtwHtOperationUpdate_erpUpdates]
  · rfl

@[simp] theorem assignNonErp_sta : (assignNonErp c s i b).sta = s.sta.assign i .nonErp b := by
  unfold assignNonErp
  dsimp only
  split <;> rfl

@[simp] theorem assignNonErp_htUpdates : (assignNonErp c s i b).htUpdates = s.htUpdates := by
  unfold assignNonErp
  dsimp only
  split <;> rfl

end Frame

theorem newOpMode_eq (hnn : ∀ m, 0 ≤ s.sta.num m)
    (hgf : 0 < s.sta.num .htNoGf → 0 < s.sta.num .noHt) (element : Option HtInfo) :
    newOpMode c s = describedOpMode c (htSnapshot element s) := by
  have hht := hnn .noHt
  have h20 := hnn .ht20mhz
  have hmixed : (0 < s.sta.num .noHt ∨ 0 < s.sta.num .htNoGf) ↔ s.sta.num .noHt ≠ 0 := by omega
  have hwide : (c.supWidth = true ∧ 0 < s.sta.num .ht20mhz) ↔
      (c.supWidth = true ∧ s.sta.num .ht20mhz ≠ 0) := and_congr_right fun _ => by omega
  rw [newOpMode, describedOpMode]
  by_cases hm : s.sta.num .noHt ≠ 0
  · rw [if_pos hm]
    exact (if_pos (hmixed.mpr hm)).symm
  · rw [if_neg hm]
    refine Eq.trans ?_ (if_neg fun h => hm (hmixed.mp h)).symm
    by_cases hw : c.supWidth = true ∧ s.sta.num .ht20mhz ≠ 0
    · rw [if_pos hw]
      exact (if_pos (hwide.mpr hw)).symm
    · rw [if_neg hw]
      exact (if_neg fun h => hw (hwide.mp h)).symm

theorem updateBcnHtinfoIe_right (h : ∀ u ∈ s.htUpdates, u.Right c)
    (hnn : ∀ m, 0 ≤ s.sta.num m) (hgf : c.htOption = true → 0 < s.sta.num .htNoGf →
      0 < s.sta.num .noHt)
    (helem : c.htOption = true → c.htInfoElem = true)
    (hmode : c.htOption = true → s.htOpMode.opMode = newOpMode c s) :
    ∀ u ∈ (updateBcnHtinfoIe c s).htUpdates, u.Right c := by
  unfold updateBcnHtinfoIe
  split
  next => exact h
  next hopt =>
    rw [Bool.not_eq_true', Bool.not_eq_false] at hopt
    rw [helem hopt, if_neg (by decide)]
    intro u hu
    obtain hu | hu := List.mem_append.mp hu
    · exact h u (by simpa using hu)
    · have hsnap (element : Option HtInfo) (info : HtInfo) :
          htSnapshot element { switchWidth c s with htInfo := info } = htSnapshot element s := by
        simp [htSnapshot]
      rw [List.mem_singleton.mp hu, hsnap]
      refine ⟨_, rfl, ?_⟩
      rw [← newOpMode_eq hnn (hgf hopt)]
      exact (congrArg _ switchWidth_htOpMode).trans (hmode hopt)

theorem refreshHt_right (h : ∀ u ∈ s.htUpdates, u.Right c)
    (hnn : ∀ m, 0 ≤ s.sta.num m) (hgf : c.htOption = true → 0 < s.sta.num .htNoGf →
      0 < s.sta.num .noHt)
    (helem : c.htOption = true → c.htInfoElem = true) :
    ∀ u ∈ (refreshHt c s).htUpdates, u.Right c := by
  unfold refreshHt
  split
  · refine updateBcnHtinfoIe_right (by rwa [rtwHtOperationUpdate_htUpdates])
      (by rwa [rtwHtOperationUpdate_sta]) (by rwa [rtwHtOperationUpdate_sta]) helem fun hopt => ?_
    simp only [rtwHtOperationUpdate, hopt, Bool.not_true, Bool.false_eq_true, if_false]
    rfl
  · exact h

theorem assignNonErp_right (h : ∀ u ∈ s.erpUpdates, u.Right) (helem : c.erpElem = true) :
    ∀ u ∈ (assignNonErp c s i b).erpUpdates, u.Right := by
  unfold assignNonErp
  dsimp only
  split
  next hchange =>
    intro u hu
    have hnum : (s.sta.assign i .nonErp b).num .nonErp = if b then 1 else 0 := by
      rw [firstOrLast, Bool.and_eq_true, beq_iff_eq] at hchange
      exact hchange.2
    simp only [updateBcnErpinfoIe, helem, if_true, List.mem_append, List.mem_singleton] at hu
    obtain hu | rfl := hu
    · exact h u hu
    · refine ⟨_, rfl, ?_, ?_, ?_⟩
      · rw [hnum]
        cases b <;> simp
      · rw [hnum]
        cases b <;> simp
      · exact decide_eq_true_iff
  next => exact h

/-! ## Steps -/

/-- What every run keeps. -/
structure Inv (c : ApCfg) (s : ApState) : Prop where
  tally : Tally s.sta
  marks : MarksRight s.sta
  greenfield : c.htOption = true → Greenfield s.sta
  erp : ∀ u ∈ s.erpUpdates, u.Right
  ht : ∀ u ∈ s.htUpdates, u.Right c

theorem Inv.protected (h : Inv c s) : Protected c s where
  counters := h.tally.countersRight h.marks
  erp := h.erp
  ht := h.ht

theorem greenfield_num (ht : Tally t) (hm : MarksRight t) (hg : Greenfield t)
    (hpos : 0 < t.num .htNoGf) : 0 < t.num .noHt := by
  have hcount := ht.countersRight hm
  rw [hcount.pos_iff] at hpos ⊢
  exact hg hpos

theorem Inv.refreshHt (h : Inv c s) (helem : c.htOption = true → c.htInfoElem = true) :
    Inv c (refreshHt c s) where
  tally := by rw [refreshHt_sta]; exact h.tally
  marks := by rw [refreshHt_sta]; exact h.marks
  greenfield := by rw [refreshHt_sta]; exact h.greenfield
  erp := by rw [refreshHt_erpUpdates]; exact h.erp
  ht := refreshHt_right h.ht h.tally.nonneg
    (fun hopt => greenfield_num h.tally h.marks (h.greenfield hopt)) helem

def htMark (old : CapMark → Bool) (f : StaCaps) : CapMark → Bool
  | .noHt => !f.ht
  | .htNoGf => old .htNoGf || f.has .htNoGf
  | .ht20mhz => old .ht20mhz || f.has .ht20mhz
  | m => old m

def joinHtSta (t : ApSta) (i : ℕ) (f : StaCaps) : ApSta :=
  if f.ht then
    let t := t.assign i .noHt false
    let t := if !f.grnFld then t.assign i .htNoGf true else t
    if !f.supWidth then t.assign i .ht20mhz true else t
  else t.assign i .noHt true

theorem joinHt_sta : (joinHt s i f).sta = joinHtSta s.sta i f := by
  unfold joinHt joinHtSta ApState.assign
  cases f.ht <;> cases f.grnFld <;> cases f.supWidth <;> dsimp only <;>
    simp only [Bool.not_true, Bool.not_false, Bool.false_eq_true, if_true, if_false]
  all_goals (split <;> rfl)

theorem joinHt_updates : (joinHt s i f).erpUpdates = s.erpUpdates ∧
    (joinHt s i f).htUpdates = s.htUpdates := by
  unfold joinHt ApState.assign
  cases f.ht <;> cases f.grnFld <;> cases f.supWidth <;> dsimp only <;>
    simp only [Bool.not_true, Bool.not_false, Bool.false_eq_true, if_true, if_false, and_self]
  all_goals (split <;> simp only [and_self])

theorem joinHtSta_joined : (joinHtSta t i f).joined = t.joined := by
  unfold joinHtSta
  cases f.ht <;> cases f.grnFld <;> cases f.supWidth <;> simp

theorem joinHtSta_caps : (joinHtSta t i f).caps = t.caps := by
  unfold joinHtSta
  cases f.ht <;> cases f.grnFld <;> cases f.supWidth <;> simp

theorem joinHtSta_tally (h : Tally t) (hi : i ∈ t.joined) : Tally (joinHtSta t i f) := by
  have hno := h.assign (m := .noHt) (i := i) (b := false) (.inr rfl)
  unfold joinHtSta
  dsimp only
  split
  · have hgf : Tally (if !f.grnFld then (t.assign i .noHt false).assign i .htNoGf true
        else t.assign i .noHt false) := by
      split
      · exact hno.assign (.inl (by rwa [assign_joined]))
      · exact hno
    split
    · refine hgf.assign (.inl ?_)
      split <;> simpa using hi
    · exact hgf
  · exact h.assign (.inl hi)

theorem joinHtSta_marks (m : CapMark) (j : ℕ) :
    (joinHtSta t i f).marks m j =
      if j = i then htMark (fun m => t.marks m i) f m else t.marks m j := by
  unfold joinHtSta
  rcases eq_or_ne j i with rfl | hj
  · cases hht : f.ht <;> cases hg : f.grnFld <;> cases hw : f.supWidth <;> cases m <;>
      simp [assign_marks, htMark, StaCaps.has, hht, hg, hw]
  · cases f.ht <;> cases f.grnFld <;> cases f.supWidth <;> simp [assign_marks, hj]

theorem Inv.join (h : Inv c s) (hok : ProtectionOk c s (.join i f)) :
    Inv c (bssCapUpdateOnStaJoin c s i f) := by
  obtain ⟨hht, hgf, h20, hann⟩ := hok
  -- the four steps before the HT elements, on the stations
  let t := (((s.sta.enter i f).assign i .noShortPreamble (!f.shortPreamble)).assign i .nonErp
    f.nonErp).assign i .noShortSlotTime (!f.shortSlot)
  have hin : i ∈ (s.sta.enter i f).joined := Finset.mem_insert_self i _
  have htally : Tally t :=
    (((h.tally.enter f).assign (.inl hin)).assign (.inl (by simpa using hin))).assign
      (.inl (by simpa using hin))
  have hjoined : t.joined = insert i s.sta.joined := by simp [t, ApSta.enter]
  have hcaps : t.caps = Function.update s.sta.caps i f := by simp [t, ApSta.enter]
  rw [bssCapUpdateOnStaJoin, if_pos hht]
  refine Inv.refreshHt ?_ hann.htInfoElem
  constructor
  · rw [joinHt_sta]
    refine joinHtSta_tally ?_ ?_
    · simpa [ApState.assign] using htally
    · simpa [ApState.assign] using hin
  · rw [joinHt_sta]
    intro m j hj
    rw [joinHtSta_joined] at hj
    rw [joinHtSta_marks, joinHtSta_caps]
    have hsta : (((assignNonErp c (({ s with sta := s.sta.enter i f } : ApState).assign i
        .noShortPreamble (!f.shortPreamble)) i f.nonErp).assign i .noShortSlotTime
        (!f.shortSlot)).sta) = t := by simp [ApState.assign, t]
    rw [hsta] at hj ⊢
    rw [hcaps]
    rcases eq_or_ne j i with rfl | hne
    · rw [if_pos rfl, Function.update_self]
      have hold (m : CapMark) : s.sta.marks m j = true → j ∈ s.sta.joined ∧
          (s.sta.caps j).has m = true := by
        intro hm
        have hmem : j ∈ s.sta.joined := by
          by_contra hout
          rw [h.tally.outside m j hout] at hm
          cases hm
        exact ⟨hmem, by rw [← h.marks m j hmem, hm]⟩
      cases m
      · simp [htMark, t, assign_marks, StaCaps.has]
      · simp [htMark, t, assign_marks, StaCaps.has]
      · simp [htMark, t, assign_marks, StaCaps.has]
      · rfl
      · change (t.marks .htNoGf j || f.has .htNoGf) = f.has .htNoGf
        have heq : t.marks .htNoGf j = s.sta.marks .htNoGf j := by
          simp [t, assign_marks, ApSta.enter]
        rw [heq, Bool.or_eq_right_iff_imp]
        exact fun hm => hgf (hold _ hm).1 (hold _ hm).2
      · change (t.marks .ht20mhz j || f.has .ht20mhz) = f.has .ht20mhz
        have heq : t.marks .ht20mhz j = s.sta.marks .ht20mhz j := by
          simp [t, assign_marks, ApSta.enter]
        rw [heq, Bool.or_eq_right_iff_imp]
        exact fun hm => h20 (hold _ hm).1 (hold _ hm).2
    · rw [if_neg hne, Function.update_of_ne hne]
      rw [hjoined] at hj
      have heq : t.marks m j = s.sta.marks m j := by simp [t, assign_marks, ApSta.enter, hne]
      rw [heq, h.marks m j (Finset.mem_of_mem_insert_of_ne hj hne)]
  · intro hopt
    rw [joinHt_sta, Greenfield, joinHtSta_joined, joinHtSta_caps]
    simpa [ApState.assign, Greenfield] using hann.greenfield hopt
  · rw [joinHt_updates.1]
    exact assignNonErp_right h.erp hann.erpElem
  · rw [joinHt_updates.2]
    change ∀ u ∈ (assignNonErp c _ i f.nonErp).htUpdates, u.Right c
    rw [assignNonErp_htUpdates]
    exact h.ht

def clearSta (t : ApSta) (i : ℕ) : ApSta :=
  (((((t.assign i .noShortPreamble false).assign i .nonErp false).assign i .noShortSlotTime
    false).assign i .htNoGf false).assign i .noHt false).assign i .ht20mhz false

theorem clearMarks_sta : (clearMarks c s i).sta = clearSta s.sta i := by
  simp [clearMarks, ApState.assign, clearSta]

theorem clearSta_marks (m : CapMark) (j : ℕ) :
    (clearSta t i).marks m j = if j = i then false else t.marks m j := by
  rcases eq_or_ne j i with rfl | hj
  · cases m <;> simp [clearSta, assign_marks]
  · simp [clearSta, assign_marks, hj]

theorem Inv.leave (h : Inv c s) (hok : ProtectionOk c s (.leave i)) :
    Inv c (bssCapUpdateOnStaLeave c s i) := by
  have htally : Tally (clearSta s.sta i) :=
    (((((h.tally.assign (.inr rfl)).assign (.inr rfl)).assign (.inr rfl)).assign
      (.inr rfl)).assign (.inr rfl)).assign (.inr rfl)
  have hjoined : (clearSta s.sta i).joined = s.sta.joined := by simp [clearSta]
  have hcaps : (clearSta s.sta i).caps = s.sta.caps := by simp [clearSta]
  have hinv : Inv c { clearMarks c s i with sta := (clearMarks c s i).sta.leave i } := by
    rw [clearMarks_sta]
    constructor
    · exact htally.leave fun m => by rw [clearSta_marks, if_pos rfl]
    · intro m j hj
      change j ∈ (clearSta s.sta i).joined.erase i at hj
      rw [hjoined] at hj
      have hne := Finset.ne_of_mem_erase hj
      change (clearSta s.sta i).marks m j = ((clearSta s.sta i).caps j).has m
      rw [clearSta_marks, if_neg hne, hcaps, h.marks m j (Finset.mem_of_mem_erase hj)]
    · intro hopt
      have hg := hok.greenfield hopt
      simpa [Greenfield, ApSta.leave, hjoined, hcaps] using hg
    · exact assignNonErp_right h.erp hok.erpElem
    · change ∀ u ∈ (assignNonErp c _ i false).htUpdates, u.Right c
      rw [assignNonErp_htUpdates]
      exact h.ht
  rw [bssCapUpdateOnStaLeave]
  refine Inv.refreshHt ?_ hok.htInfoElem
  dsimp only
  split
  · exact ⟨hinv.tally, hinv.marks, hinv.greenfield, hinv.erp, hinv.ht⟩
  · exact hinv

/-- The beacon is refreshed, and nothing has changed that the announcement speaks of. -/
theorem Inv.updateBcnHtinfoIe {s' : ApState} (h : Inv c s)
    (hok : c.htOption = true → c.htInfoElem = true ∧ s.htOpMode.opMode = newOpMode c s)
    (hsta : s'.sta = s.sta) (hmode : s'.htOpMode = s.htOpMode) (holbc : s'.olbcHt = s.olbcHt)
    (herp : s'.erpUpdates = s.erpUpdates) (hht : s'.htUpdates = s.htUpdates) :
    Inv c (updateBcnHtinfoIe c s') where
  tally := by rw [updateBcnHtinfoIe_sta, hsta]; exact h.tally
  marks := by rw [updateBcnHtinfoIe_sta, hsta]; exact h.marks
  greenfield := by rw [updateBcnHtinfoIe_sta, hsta]; exact h.greenfield
  erp := by rw [updateBcnHtinfoIe_erpUpdates, herp]; exact h.erp
  ht := by
    refine updateBcnHtinfoIe_right (by rw [hht]; exact h.ht) (by rw [hsta]; exact h.tally.nonneg)
      (fun hopt => ?_) (fun hopt => (hok hopt).1) fun hopt => ?_
    · rw [hsta]
      exact greenfield_num h.tally h.marks (h.greenfield hopt)
    · rw [hmode, (hok hopt).2]
      simp only [newOpMode, hsta, holbc]

theorem Inv.bsscoex {body : Bytes} (h : Inv c s) (hok : ProtectionOk c s (.bsscoex i body)) :
    Inv c (rtwProcessPublicActBsscoex c s i body) := by
  rw [rtwProcessPublicActBsscoex]
  split
  · exact h.updateBcnHtinfoIe hok rfl rfl rfl rfl rfl
  · exact ⟨h.tally, h.marks, h.greenfield, h.erp, h.ht⟩

theorem Inv.checkScan {legacy : Bool} (h : Inv c s)
    (hok : ProtectionOk c s (.checkScan legacy)) : Inv c (rtwApCheckScan s legacy) := by
  have hnum : Function.update s.sta.num .noHt 0 = s.sta.num := by
    rw [← (show s.sta.num .noHt = 0 from hok), Function.update_eq_self]
  have hsta : (rtwApCheckScan s legacy).sta = s.sta := by
    change ({ s.sta with num := _ } : ApSta) = _
    rw [hnum]
  exact ⟨hsta ▸ h.tally, hsta ▸ h.marks, fun hopt => hsta ▸ h.greenfield hopt, h.erp, h.ht⟩

theorem inv_start : Inv c {} where
  tally := ⟨fun _ => rfl, fun _ _ _ => rfl⟩
  marks := fun _ i hi => absurd hi (Finset.notMem_empty i)
  greenfield := fun _ ⟨i, hi, _⟩ => absurd hi (Finset.notMem_empty i)
  erp := fun _ hu => absurd hu List.not_mem_nil
  ht := fun _ hu => absurd hu List.not_mem_nil

theorem inv_step {s' : ApState} {e : ApEvent} (h : Inv c s) (hok : ProtectionOk c s e)
    (hstep : apStep c s e = some s') : Inv c s' := by
  cases e with
  | join i f =>
    obtain rfl := Option.some.inj hstep
    exact h.join hok
  | leave i =>
    obtain rfl := Option.some.inj hstep
    exact h.leave hok
  | bsscoex i body =>
    obtain rfl := Option.some.inj hstep
    exact h.bsscoex hok
  | checkScan legacy =>
    obtain rfl := Option.some.inj hstep
    exact h.checkScan hok

/-- **The counters count and the beacon announces what they say**, along every run whose steps meet
the condition. -/
theorem protected_of_meets (c : ApCfg) {es : List ApEvent} {s : ApState}
    (hok : Transition.Meets (apStep c) (ProtectionOk c) {} es)
    (hrun : Transition.run (apStep c) {} es = some s) : Protected c s :=
  (Transition.run_invariant_of_meets (fun _ _ _ h hok hstep => inv_step h hok hstep) inv_start
    hok hrun).protected

def visit : List ApEvent :=
  [.join 0 { ht := false }, .join 1 { nonErp := true, supWidth := false }, .leave 0,
    .checkScan false]

/-- Two stations come, each with an update of the HT operation element, and one leaves. -/
theorem protected_visit :
    ∃ s, Transition.run (apStep {}) {} visit = some s ∧ s.htUpdates.length = 2 ∧ Protected {} s :=
  ⟨_, rfl, rfl, protected_of_meets {} (show Transition.Meets _ _ _ visit by decide) rfl⟩

/-- A station without HT, a scan, and the station leaves: the counter goes below zero. -/
theorem not_protected : ¬∀ (c : ApCfg) (es : List ApEvent) (s : ApState),
    Transition.run (apStep c) {} es = some s → Protected c s := by
  intro h
  have hprotected := h {} [.join 0 { ht := false }, .checkScan false, .leave 0] _ rfl
  have hnum := hprotected.counters .noHt
  have hneg : (-1 : ℤ) = _ := hnum
  omega

end Rtl88x2eu.Protection
