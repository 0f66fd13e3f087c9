import Rtl88x2eu.Ie.OpClass
import Rtl88x2eu.Ie.Walkers

/-!
# Channel switch announcements

`process_csa_ie` of `rtw_wlan_util.c` gathers the channel, the count, the offset, the width and the
centre frequencies from the elements of a beacon, and schedules a switch. It takes the bytes of an
element at fixed offsets into its body, whatever the length byte says.

## Main definitions

* `processCsaIe`, `CsaFits`, `CsaElem`, `SchedulesLast`
* `CsaElem.Whole`: an element is long enough for what is taken of it
* `Timely`

## Main results

* `insideOf_processCsaIe_iff`
* `csaWalk_run`: what is gathered of a list of whole elements
* `schedulesLast_iff`: when a switch is scheduled as the list announces it
-/

namespace Rtl88x2eu.Ie

def eidChannelSwitch : UInt8 := 37

def eidEcsa : UInt8 := 60

def eidSecondaryChannelOffset : UInt8 := 62

def eidWideBandwidthChannelSwitch : UInt8 := 194

def eidChannelSwitchWrapper : UInt8 := 196

/-- The offset that `process_csa_ie` goes on with: below for `HAL_PRIME_CHNL_OFFSET_LOWER`, above
for `HAL_PRIME_CHNL_OFFSET_UPPER`. -/
def ieeeOffset (offset : UInt8) : UInt8 :=
  if offset = chanOffsetUpper then 3 else if offset = chanOffsetLower then 1 else 0

def ieeeWidth (bw : UInt8) : UInt8 := if bw = 2 ∨ bw = 3 ∨ bw = 4 then 1 else 0

/-- What `process_csa_ie` gathers. -/
structure CsaFields where
  ch : UInt8 := 0
  csaSwitchCnt : UInt8 := 0
  csaChOffset : UInt8 := 0
  csaChWidth : UInt8 := 0
  csaChFreqSeg0 : UInt8 := 0
  csaChFreqSeg1 : UInt8 := 0
  /-- `ecsa_mode` of `rfctl`. -/
  ecsaMode : UInt8 := 0
  /-- `ecsa_op_class` of `rfctl`. -/
  ecsaOpClass : UInt8 := 0
  deriving DecidableEq

namespace CsaFields

def wide (s : CsaFields) (b : ℕ → UInt8) : CsaFields :=
  { s with csaChWidth := b 0, csaChFreqSeg0 := b 1, csaChFreqSeg1 := b 2 }

def ecsa (s : CsaFields) (b : ℕ → UInt8) : CsaFields :=
  let bwOffset := rtwGetBwOffsetByOpClassCh (b 1) (b 2) s.csaChWidth s.csaChOffset
  { s with
    ecsaMode := b 0
    ecsaOpClass := b 1
    ch := b 2
    csaSwitchCnt := b 3
    csaChWidth := ieeeWidth bwOffset.1
    csaChOffset := ieeeOffset bwOffset.2 }

def plain (s : CsaFields) (id : UInt8) (b : ℕ → UInt8) : CsaFields :=
  if id = eidChannelSwitch then { s with ch := b 1, csaSwitchCnt := b 2 }
  else if id = eidSecondaryChannelOffset then { s with csaChOffset := b 0 }
  else if id = eidWideBandwidthChannelSwitch then s.wide b
  else if id = eidEcsa then s.ecsa b
  else s

end CsaFields

/-- The loop over the elements in a wrapper. -/
def subWalk (start : ℕ) : ElemWalk CsaFields CsaFields where
  start := start
  ahead := 1
  pass p q s := .inl (if p.u8 q = eidWideBandwidthChannelSwitch then s.wide (data p q) else s)
  log p q _ := if p.u8 q = eidWideBandwidthChannelSwitch then dataAt q 0 3 else []
  leave s := s

/-- The loop over the elements in the wrapper at `q`. -/
def subOutcome (p : Bytes) (q : ℕ) (s : CsaFields) : WalkOutcome CsaFields :=
  (subWalk (q + 2)).outcome p (q + 2 + bodyLen p q) s

def csaWalk : ElemWalk CsaFields CsaFields where
  start := 0
  ahead := 1
  pass p q s := .inl <|
    if p.u8 q = eidChannelSwitchWrapper then (subOutcome p q s).result.getD s
    else s.plain (p.u8 q) (data p q)
  log p q s :=
    if p.u8 q = eidChannelSwitchWrapper then (q + 1) :: (subOutcome p q s).reads
    else if p.u8 q = eidChannelSwitch then dataAt q 1 2
    else if p.u8 q = eidSecondaryChannelOffset then dataAt q 0 1
    else if p.u8 q = eidWideBandwidthChannelSwitch then dataAt q 0 3
    else if p.u8 q = eidEcsa then dataAt q 0 4
    else []
  leave s := s

/-- What `process_csa_ie` changes of `rfctl`. -/
structure RfCtl where
  csaCh : UInt8
  csaSwitchCnt : UInt8
  csaChOffset : UInt8
  csaChWidth : UInt8
  csaChFreqSeg0 : UInt8
  csaChFreqSeg1 : UInt8
  ecsaMode : UInt8
  ecsaOpClass : UInt8
  /-- `ap_csa_en`, `ap_csa_wait_update_bcn`, `ap_csa_ch` and `ap_csa_switch_cnt`. -/
  apCsa : ℕ × ℕ × UInt8 × UInt8

/-- What `process_csa_ie` looks at besides. -/
structure CsaConfig where
  /-- `WIFI_CSA_UPDATE_BEACON` is set. -/
  csaUpdateBeacon : Bool
  apMesh : Bool
  beaconPeriod : ℕ

/-- A switch is under way already. -/
def CsaConfig.blocks (c : CsaConfig) (rfctl : RfCtl) : Bool := rfctl.csaCh ≠ 0 || c.csaUpdateBeacon

/-- What is done behind the loop: `rfctl`, and the countdown if a switch is scheduled. -/
def scheduleCsa (c : CsaConfig) (rfctl : RfCtl) (s : CsaFields) : RfCtl × Option ℕ :=
  let rfctl := { rfctl with ecsaMode := s.ecsaMode, ecsaOpClass := s.ecsaOpClass }
  if s.ch ≠ 0 then
    ({ rfctl with
        csaCh := s.ch
        csaSwitchCnt := s.csaSwitchCnt
        csaChOffset := s.csaChOffset
        csaChWidth := s.csaChWidth
        csaChFreqSeg0 := s.csaChFreqSeg0
        csaChFreqSeg1 := s.csaChFreqSeg1
        -- `STA_RX_CSA`
        apCsa := if c.apMesh then (2, 0, s.ch, s.csaSwitchCnt) else rfctl.apCsa },
      some (c.beaconPeriod * (s.csaSwitchCnt.toNat + 1)))
  else (rfctl, none)

/-- What is gathered before the loop. -/
def CsaFields.start (rfctl : RfCtl) : CsaFields :=
  { ecsaMode := rfctl.ecsaMode, ecsaOpClass := rfctl.ecsaOpClass }

/-- `process_csa_ie`: `rfctl`, and the countdown if a switch is scheduled. -/
def processCsaIe (c : CsaConfig) (rfctl : RfCtl) (ies : Bytes) (iesLen : ℕ) :
    WalkOutcome (RfCtl × Option ℕ) :=
  if c.blocks rfctl then ⟨some (rfctl, none), []⟩
  else
    let o := csaWalk.outcome ies iesLen (.start rfctl)
    ⟨o.result.map (scheduleCsa c rfctl), o.reads⟩

section Fits

/-- What is taken of an element in a wrapper lies before `n`. -/
@[mk_iff]
structure SubFits (p : Bytes) (n q : ℕ) : Prop where
  header : q + 2 ≤ n
  wide : p.u8 q = eidWideBandwidthChannelSwitch → q + 5 ≤ n

/-- What `process_csa_ie` takes of an element lies before `n`. -/
@[mk_iff]
structure CsaFits (p : Bytes) (n q : ℕ) (s : CsaFields) : Prop where
  header : q + 2 ≤ n
  csa : p.u8 q = eidChannelSwitch → q + 5 ≤ n
  offset : p.u8 q = eidSecondaryChannelOffset → q + 3 ≤ n
  wide : p.u8 q = eidWideBandwidthChannelSwitch → q + 5 ≤ n
  ecsa : p.u8 q = eidEcsa → q + 6 ≤ n
  wrapper : p.u8 q = eidChannelSwitchWrapper →
    ∀ r t, (subWalk (q + 2)).Visits p (q + 2 + bodyLen p q) s r t → SubFits p n r

variable {p : Bytes} {n q : ℕ}

theorem subWalk_staysAt {start : ℕ} {s : CsaFields} :
    (subWalk start).StaysAt p n q s ↔ SubFits p n q := by
  unfold ElemWalk.StaysAt subWalk
  by_cases hw : p.u8 q = eidWideBandwidthChannelSwitch
  · simp [hw, forall_dataAt, subFits_iff]
    omega
  · simp [hw, subFits_iff]
    omega

theorem insideOf_subOutcome_iff {s : CsaFields} : InsideOf (subOutcome p q s) n ↔
    ∀ r t, (subWalk (q + 2)).Visits p (q + 2 + bodyLen p q) s r t → SubFits p n r :=
  ElemWalk.insideOf_outcome_iff.trans
    (forall₂_congr fun _ _ => imp_congr_right fun _ => subWalk_staysAt)

theorem csaWalk_staysAt {s : CsaFields} : csaWalk.StaysAt p n q s ↔ CsaFits p n q s := by
  have hends : (subOutcome p q s).result.isSome := ElemWalk.isSome_run ..
  have hsub : (∀ a ∈ (subOutcome p q s).reads, a < n) ↔
      ∀ r t, (subWalk (q + 2)).Visits p (q + 2 + bodyLen p q) s r t → SubFits p n r :=
    Iff.trans ⟨fun h => ⟨hends, h⟩, fun h => h.reads⟩ insideOf_subOutcome_iff
  unfold ElemWalk.StaysAt csaWalk
  have hne : eidChannelSwitch ≠ eidChannelSwitchWrapper ∧
    eidSecondaryChannelOffset ≠ eidChannelSwitchWrapper ∧
    eidWideBandwidthChannelSwitch ≠ eidChannelSwitchWrapper ∧ eidEcsa ≠ eidChannelSwitchWrapper ∧
    eidChannelSwitch ≠ eidSecondaryChannelOffset ∧
    eidChannelSwitch ≠ eidWideBandwidthChannelSwitch ∧ eidChannelSwitch ≠ eidEcsa ∧
    eidSecondaryChannelOffset ≠ eidWideBandwidthChannelSwitch ∧
    eidSecondaryChannelOffset ≠ eidEcsa ∧ eidWideBandwidthChannelSwitch ≠ eidEcsa := by decide
  obtain ⟨hcx, hox, hwx, hex, hco, hcw, hce, how, hoe, hwe⟩ := hne
  by_cases hx : p.u8 q = eidChannelSwitchWrapper
  · simp [hx, hcx.symm, hox.symm, hwx.symm, hex.symm, hsub, csaFits_iff]
    constructor
    · rintro ⟨-, ⟨hlen, hinner⟩, -⟩
      exact ⟨hlen, hinner⟩
    · rintro ⟨hheader, hinner⟩
      exact ⟨by omega, ⟨hheader, hinner⟩, hheader⟩
  by_cases hc : p.u8 q = eidChannelSwitch
  · simp [hc, hcx, hco, hcw, hce, forall_dataAt, csaFits_iff]
    omega
  by_cases ho : p.u8 q = eidSecondaryChannelOffset
  · simp [ho, hox, hco.symm, how, hoe, forall_dataAt, csaFits_iff]
    omega
  by_cases hw : p.u8 q = eidWideBandwidthChannelSwitch
  · simp [hw, hwx, hcw.symm, how.symm, hwe, forall_dataAt, csaFits_iff]
    omega
  by_cases he : p.u8 q = eidEcsa
  · simp [he, hex, hce.symm, hoe.symm, hwe.symm, forall_dataAt, csaFits_iff]
    omega
  · simp [hx, hc, ho, hw, he, csaFits_iff]
    omega

end Fits

/-! ## Well-formed lists -/

/-- An element of a well-formed list; a wrapper holds a list of its own. -/
inductive CsaElem
  | plain (e : Elem) (h : e.id ≠ eidChannelSwitchWrapper)
  | wrapper (inner : List Elem) (short : (encode inner).length < 256)

def Elem.wides (e : Elem) : List Bytes :=
  if e.id = eidWideBandwidthChannelSwitch ∧ 3 ≤ e.body.length then [e.body] else []

namespace CsaElem

def elem : CsaElem → Elem
  | plain e _ => e
  | wrapper inner short => ⟨eidChannelSwitchWrapper, encode inner, short⟩

def announcements : CsaElem → List (UInt8 × UInt8)
  | plain e _ =>
    if e.id = eidChannelSwitch ∧ 3 ≤ e.body.length then [(e.body.u8 1, e.body.u8 2)]
    else if e.id = eidEcsa ∧ 4 ≤ e.body.length then [(e.body.u8 2, e.body.u8 3)]
    else []
  | wrapper .. => []

/-- The wide bandwidth channel switches that the element is or holds. -/
def wides : CsaElem → List Bytes
  | plain e _ => e.wides
  | wrapper inner _ => inner.flatMap Elem.wides

def byClass : CsaElem → List (UInt8 × UInt8)
  | plain e _ =>
    if e.id = eidEcsa ∧ 4 ≤ e.body.length then
      (classBwOffset (e.body.u8 1) (e.body.u8 2)).toList
    else []
  | wrapper .. => []

/-- What the element says of the secondary channel, by its operating class (an `enum chan_offset`)
or as it stands. -/
def secondary (x : CsaElem) : List (Bool × UInt8) :=
  x.byClass.map (fun c => (true, c.2)) ++
    match x with
    | plain e _ =>
      if e.id = eidSecondaryChannelOffset ∧ 1 ≤ e.body.length then [(false, e.body.u8 0)] else []
    | wrapper .. => []

/-- The secondary channel offset of an element: 1 above the primary channel, 3 below it. -/
def toldOffset (o : Bool × UInt8) : UInt8 :=
  if o.1 then if o.2 = chanOffsetUpper then 1 else if o.2 = chanOffsetLower then 3 else 0
  else o.2

def offsets (x : CsaElem) : List UInt8 := x.secondary.map toldOffset

def widths (x : CsaElem) : List UInt8 :=
  x.byClass.map (fun c => ieeeWidth c.1) ++ x.wides.map fun b => b.u8 0

/-- The centre frequencies that the element gives. -/
def segs (x : CsaElem) : List (UInt8 × UInt8) := x.wides.map fun b => (b.u8 1, b.u8 2)

/-- The element is long enough for what is taken of it, and an operating class is known. -/
def Whole : CsaElem → Prop
  | plain e _ =>
    (e.id = eidChannelSwitch → 3 ≤ e.body.length) ∧
    (e.id = eidSecondaryChannelOffset → 1 ≤ e.body.length) ∧
    (e.id = eidWideBandwidthChannelSwitch → 3 ≤ e.body.length) ∧
    (e.id = eidEcsa →
      4 ≤ e.body.length ∧ (classBwOffset (e.body.u8 1) (e.body.u8 2)).isSome = true)
  | wrapper inner _ => ∀ e ∈ inner, e.id = eidWideBandwidthChannelSwitch → 3 ≤ e.body.length

def apply : CsaElem → CsaFields → CsaFields
  | plain e _, s => s.plain e.id e.body.u8
  | wrapper inner _, s =>
    inner.foldl (fun s e =>
      if e.id = eidWideBandwidthChannelSwitch then s.wide e.body.u8 else s) s

end CsaElem

def lastOr {α : Type} (l : List α) (a : α) : α := l.getLast?.getD a

/-- **A switch is scheduled exactly if a channel other than zero is announced**, with what the last
element of each kind gives. -/
structure SchedulesLast (L : List CsaElem) (r : RfCtl × Option ℕ) : Prop where
  scheduled : r.2.isSome ↔ ∃ a ∈ L.flatMap CsaElem.announcements, a.1 ≠ 0
  channel : r.2.isSome →
    (r.1.csaCh, r.1.csaSwitchCnt) = lastOr (L.flatMap CsaElem.announcements) (0, 0)
  offset : r.2.isSome → r.1.csaChOffset = lastOr (L.flatMap CsaElem.offsets) 0
  width : r.2.isSome → r.1.csaChWidth = lastOr (L.flatMap CsaElem.widths) 0
  segs : r.2.isSome →
    (r.1.csaChFreqSeg0, r.1.csaChFreqSeg1) = lastOr (L.flatMap CsaElem.segs) (0, 0)

/-- No channel is announced while a switch is under way, nor before the channel zero; and where one
is, the secondary channel is not that of an operating class. -/
structure Timely (c : CsaConfig) (rfctl : RfCtl) (L : List CsaElem) : Prop where
  blocked : c.blocks rfctl = true → ∀ a ∈ L.flatMap CsaElem.announcements, a.1 = 0
  last : (lastOr (L.flatMap CsaElem.announcements) (0, 0)).1 = 0 →
    ∀ a ∈ L.flatMap CsaElem.announcements, a.1 = 0
  -- `LOWER` and `UPPER` name the place of the primary channel, and are taken for that of the other
  secondary : (∃ a ∈ L.flatMap CsaElem.announcements, a.1 ≠ 0) →
    ∀ v, lastOr (L.flatMap CsaElem.secondary) (false, 0) = (true, v) →
      v ≠ chanOffsetUpper ∧ v ≠ chanOffsetLower

section Lists

variable {α ι σ : Type} {L : List CsaElem} {x : CsaElem} {e : Elem} {pre rest : Bytes} {k : ℕ}
  {s : CsaFields} {b b' : ℕ → UInt8} {id : UInt8}

@[simp] theorem lastOr_nil (a : α) : lastOr [] a = a := rfl

@[simp] theorem lastOr_singleton (b a : α) : lastOr [b] a = b := rfl

theorem lastOr_map (f : ι → α) (l : List ι) (a : ι) : lastOr (l.map f) (f a) = f (lastOr l a) := by
  unfold lastOr
  rw [List.getLast?_map, Option.getD_map]

theorem lastOr_append (l m : List α) (a : α) : lastOr (l ++ m) a = lastOr m (lastOr l a) := by
  unfold lastOr
  rw [List.getLast?_append]
  cases m.getLast? <;> rfl

theorem foldl_lastOr {g : σ → α} {f : ι → List α} {step : ι → σ → σ} {items : List ι}
    (h : ∀ x ∈ items, ∀ s, g (step x s) = lastOr (f x) (g s)) (s : σ) :
    g (items.foldl (fun s x => step x s) s) = lastOr (items.flatMap f) (g s) := by
  induction items generalizing s with
  | nil => rfl
  | cons x items ih =>
    rw [List.foldl_cons, ih fun y hy => h y (List.mem_cons_of_mem x hy),
      h x List.mem_cons_self, List.flatMap_cons, lastOr_append]

theorem mem_of_lastOr_ne {l : List (UInt8 × UInt8)} (h : (lastOr l (0, 0)).1 ≠ 0) :
    lastOr l (0, 0) ∈ l := by
  unfold lastOr at h ⊢
  cases hlast : l.getLast? with
  | none =>
    rw [hlast] at h
    exact absurd rfl h
  | some a => exact List.mem_of_getLast? hlast

theorem plain_congr (hcsa : id = eidChannelSwitch → b 1 = b' 1 ∧ b 2 = b' 2)
    (hoffset : id = eidSecondaryChannelOffset → b 0 = b' 0)
    (hwide : id = eidWideBandwidthChannelSwitch → b 0 = b' 0 ∧ b 1 = b' 1 ∧ b 2 = b' 2)
    (hecsa : id = eidEcsa → b 0 = b' 0 ∧ b 1 = b' 1 ∧ b 2 = b' 2 ∧ b 3 = b' 3) :
    s.plain id b = s.plain id b' := by
  unfold CsaFields.plain
  split
  case isTrue hid =>
    obtain ⟨h1, h2⟩ := hcsa hid
    rw [h1, h2]
  split
  case isTrue hid => rw [hoffset hid]
  split
  case isTrue hid =>
    obtain ⟨h0, h1, h2⟩ := hwide hid
    rw [CsaFields.wide, CsaFields.wide, h0, h1, h2]
  split
  case isTrue hid =>
    obtain ⟨h0, h1, h2, h3⟩ := hecsa hid
    rw [CsaFields.ecsa, CsaFields.ecsa, h0, h1, h2, h3]
  case isFalse => rfl

theorem subOutcome_wrapper {inner : List Elem} (short : (encode inner).length < 256)
    (hwhole : ∀ e ∈ inner, e.id = eidWideBandwidthChannelSwitch → 3 ≤ e.body.length)
    (pre rest : Bytes) (s : CsaFields) :
    (subOutcome (pre ++ ((CsaElem.wrapper inner short).elem.bytes ++ rest)) pre.length s).result =
      some ((CsaElem.wrapper inner short).apply s) := by
  have hsplit : pre ++ ((CsaElem.wrapper inner short).elem.bytes ++ rest) =
      (pre ++ [eidChannelSwitchWrapper, UInt8.ofNat (encode inner).length]) ++
        (encode (inner.map fun e => e) ++ rest) := by
    rw [List.map_id', List.append_assoc]
    rfl
  have hlen : (pre ++ [eidChannelSwitchWrapper, UInt8.ofNat (encode inner).length]).length =
      pre.length + 2 := by
    rw [List.length_append]
    rfl
  have hlimit : pre.length + 2 +
      bodyLen (pre ++ ((CsaElem.wrapper inner short).elem.bytes ++ rest)) pre.length =
      ((pre ++ [eidChannelSwitchWrapper, UInt8.ofNat (encode inner).length]) ++
        encode (inner.map fun e => e)).length := by
    rw [bodyLen_bytes, List.length_append, hlen, List.map_id']
    rfl
  have hpass : ∀ e ∈ inner, ∀ pre' rest' t,
      (subWalk (pre.length + 2)).pass (pre' ++ (e.bytes ++ rest')) pre'.length t =
        .inl (if e.id = eidWideBandwidthChannelSwitch then t.wide e.body.u8 else t) := by
    intro e he pre' rest' t
    unfold subWalk
    dsimp only
    rw [u8_bytes]
    split
    case isFalse => rfl
    case isTrue hid =>
      have hlong := hwhole e he hid
      rw [CsaFields.wide, data_bytes (by omega), data_bytes (by omega), data_bytes (by omega)]
      rfl
  change (subWalk (pre.length + 2)).run _ (pre.length + 2 + bodyLen _ _) s = _
  rw [hlimit, hsplit]
  exact ElemWalk.run_elems le_rfl hlen.symm hpass

theorem pass_plain (hid : e.id ≠ eidChannelSwitchWrapper) (h : (CsaElem.plain e hid).Whole)
    (pre rest : Bytes) (s : CsaFields) :
    csaWalk.pass (pre ++ (e.bytes ++ rest)) pre.length s = .inl (s.plain e.id e.body.u8) := by
  obtain ⟨hcsa, hoffset, hwide, hecsa⟩ := h
  unfold csaWalk
  dsimp only
  rw [u8_bytes, if_neg hid]
  refine congrArg Sum.inl (plain_congr (fun hid => ?_) (fun hid => ?_) (fun hid => ?_)
    fun hid => ?_)
  · have hlong := hcsa hid
    exact ⟨data_bytes (by omega), data_bytes (by omega)⟩
  · have hlong := hoffset hid
    exact data_bytes (by omega)
  · have hlong := hwide hid
    exact ⟨data_bytes (by omega), data_bytes (by omega), data_bytes (by omega)⟩
  · have hlong := (hecsa hid).1
    exact ⟨data_bytes (by omega), data_bytes (by omega), data_bytes (by omega),
      data_bytes (by omega)⟩

/-- **What the loop does to the fields on a whole element.** -/
theorem pass_elem (h : x.Whole) (pre rest : Bytes) (s : CsaFields) :
    csaWalk.pass (pre ++ (x.elem.bytes ++ rest)) pre.length s = .inl (x.apply s) := by
  cases x with
  | plain e hid => exact pass_plain hid h pre rest s
  | wrapper inner short =>
    have hid : (CsaElem.wrapper inner short).elem.id = eidChannelSwitchWrapper := rfl
    unfold csaWalk
    dsimp only
    rw [u8_bytes, if_pos hid, subOutcome_wrapper short h, Option.getD_some]

/-- **What the loop gathers of a list of whole elements.** -/
theorem csaWalk_run (h : ∀ x ∈ L, x.Whole) (rest : Bytes) (s : CsaFields) :
    csaWalk.run (encode (L.map CsaElem.elem) ++ rest) (encode (L.map CsaElem.elem)).length s =
      some (L.foldl (fun s x => x.apply s) s) :=
  @ElemWalk.run_elems _ _ csaWalk s CsaElem CsaElem.elem CsaElem.apply L [] rest le_rfl rfl
    fun x hx => pass_elem (h x hx)

/-! ## What is gathered -/

theorem kinds_ne : eidChannelSwitch ≠ eidSecondaryChannelOffset ∧
    eidChannelSwitch ≠ eidWideBandwidthChannelSwitch ∧ eidChannelSwitch ≠ eidEcsa ∧
    eidSecondaryChannelOffset ≠ eidWideBandwidthChannelSwitch ∧
    eidSecondaryChannelOffset ≠ eidEcsa ∧ eidWideBandwidthChannelSwitch ≠ eidEcsa := by
  decide

theorem kept_inner {g : CsaFields → α} (inner : List Elem)
    (hg : ∀ b s, g (CsaFields.wide s b) = g s) (s : CsaFields) :
    g (inner.foldl (fun s e =>
      if e.id = eidWideBandwidthChannelSwitch then s.wide e.body.u8 else s) s) = g s := by
  induction inner generalizing s with
  | nil => rfl
  | cons e inner ih =>
    rw [List.foldl_cons, ih]
    by_cases hw : e.id = eidWideBandwidthChannelSwitch
    · rw [if_pos hw, hg]
    · rw [if_neg hw]

theorem channel_apply (h : x.Whole) (s : CsaFields) :
    ((x.apply s).ch, (x.apply s).csaSwitchCnt) =
      lastOr x.announcements (s.ch, s.csaSwitchCnt) := by
  obtain ⟨hco, hcw, hce, how, hoe, hwe⟩ := kinds_ne
  cases x with
  | wrapper inner short =>
    exact @kept_inner _ (fun s => (s.ch, s.csaSwitchCnt)) inner (fun b s => rfl) s
  | plain e hid =>
    obtain ⟨hcsa, -, -, hecsa⟩ := h
    simp only [CsaElem.apply, CsaFields.plain, CsaElem.announcements]
    by_cases hc : e.id = eidChannelSwitch
    · simp [hc, hcsa hc]
    by_cases ho : e.id = eidSecondaryChannelOffset
    · simp [ho, hco.symm, hoe]
    by_cases hw : e.id = eidWideBandwidthChannelSwitch
    · simp [hw, hcw.symm, how.symm, hwe, CsaFields.wide]
    by_cases he : e.id = eidEcsa
    · simp [he, hce.symm, hoe.symm, hwe.symm, (hecsa he).1, CsaFields.ecsa]
    · simp [hc, ho, hw, he]

/-- The offset that is made of what an element says. -/
def takenOffset (o : Bool × UInt8) : UInt8 := if o.1 then ieeeOffset o.2 else o.2

theorem takenOffset_eq_iff (o : Bool × UInt8) : takenOffset o = CsaElem.toldOffset o ↔
    ∀ v, o = (true, v) → v ≠ chanOffsetUpper ∧ v ≠ chanOffsetLower := by
  obtain ⟨byClass, w⟩ := o
  cases byClass with
  | false =>
    refine iff_of_true rfl fun v hv => ?_
    cases hv
  | true =>
    unfold takenOffset CsaElem.toldOffset ieeeOffset
    simp only [if_true, Prod.mk.injEq, true_and, forall_eq']
    by_cases hupper : w = chanOffsetUpper
    · simp [hupper]
    by_cases hlower : w = chanOffsetLower
    · simp [hlower, (by decide : chanOffsetLower ≠ chanOffsetUpper)]
    · simp [hupper, hlower]

theorem offset_apply (h : x.Whole) (s : CsaFields) :
    (x.apply s).csaChOffset = lastOr (x.secondary.map takenOffset) s.csaChOffset := by
  obtain ⟨hco, hcw, hce, how, hoe, hwe⟩ := kinds_ne
  cases x with
  | wrapper inner short => exact kept_inner inner (fun b s => rfl) s
  | plain e hid =>
    obtain ⟨-, hoffset, -, hecsa⟩ := h
    simp only [CsaElem.apply, CsaFields.plain, CsaElem.secondary, CsaElem.byClass]
    by_cases hc : e.id = eidChannelSwitch
    · simp [hc, hco, hce]
    by_cases ho : e.id = eidSecondaryChannelOffset
    · simp [ho, hco.symm, hoe, hoffset ho, takenOffset]
    by_cases hw : e.id = eidWideBandwidthChannelSwitch
    · simp [hw, hcw.symm, how.symm, hwe, CsaFields.wide]
    by_cases he : e.id = eidEcsa
    · obtain ⟨hlong, hclass⟩ := hecsa he
      obtain ⟨c, hc⟩ := Option.isSome_iff_exists.mp hclass
      simp [he, hce.symm, hoe.symm, hwe.symm, hlong, hc, CsaFields.ecsa, takenOffset,
        rtwGetBwOffsetByOpClassCh_of_some hc]
    · simp [hc, ho, hw, he]

theorem wide_inner {g : CsaFields → α} {v : Bytes → α} (inner : List Elem)
    (hwhole : ∀ e ∈ inner, e.id = eidWideBandwidthChannelSwitch → 3 ≤ e.body.length)
    (hg : ∀ b s, g (CsaFields.wide s b.u8) = v b) (s : CsaFields) :
    g (inner.foldl (fun s e =>
      if e.id = eidWideBandwidthChannelSwitch then s.wide e.body.u8 else s) s) =
      lastOr ((inner.flatMap Elem.wides).map v) (g s) := by
  rw [List.map_flatMap]
  refine @foldl_lastOr _ _ _ g (fun e => e.wides.map v)
    (fun e s => if e.id = eidWideBandwidthChannelSwitch then s.wide e.body.u8 else s) inner
    (fun e he s => ?_) s
  unfold Elem.wides
  by_cases hw : e.id = eidWideBandwidthChannelSwitch
  · rw [if_pos hw, if_pos ⟨hw, hwhole e he hw⟩, hg]
    rfl
  · rw [if_neg hw, if_neg fun hpair => hw hpair.1]
    rfl

theorem width_apply (h : x.Whole) (s : CsaFields) :
    (x.apply s).csaChWidth = lastOr x.widths s.csaChWidth := by
  obtain ⟨hco, hcw, hce, how, hoe, hwe⟩ := kinds_ne
  cases x with
  | wrapper inner short => exact wide_inner inner h (fun b s => rfl) s
  | plain e hid =>
    obtain ⟨-, -, hwide, hecsa⟩ := h
    simp only [CsaElem.apply, CsaFields.plain, CsaElem.widths, CsaElem.byClass, CsaElem.wides,
      Elem.wides]
    by_cases hc : e.id = eidChannelSwitch
    · simp [hc, hcw, hce]
    by_cases ho : e.id = eidSecondaryChannelOffset
    · simp [ho, hco.symm, how, hoe]
    by_cases hw : e.id = eidWideBandwidthChannelSwitch
    · simp [hw, hcw.symm, how.symm, hwe, hwide hw, CsaFields.wide]
    by_cases he : e.id = eidEcsa
    · obtain ⟨hlong, hclass⟩ := hecsa he
      obtain ⟨c, hc⟩ := Option.isSome_iff_exists.mp hclass
      simp [he, hce.symm, hoe.symm, hwe.symm, hlong, hc, CsaFields.ecsa,
        rtwGetBwOffsetByOpClassCh_of_some hc]
    · simp [hc, ho, hw, he]

theorem segs_apply (h : x.Whole) (s : CsaFields) :
    ((x.apply s).csaChFreqSeg0, (x.apply s).csaChFreqSeg1) =
      lastOr x.segs (s.csaChFreqSeg0, s.csaChFreqSeg1) := by
  obtain ⟨hco, hcw, hce, how, hoe, hwe⟩ := kinds_ne
  cases x with
  | wrapper inner short =>
    exact @wide_inner _ (fun s => (s.csaChFreqSeg0, s.csaChFreqSeg1))
      (fun b => (b.u8 1, b.u8 2)) inner h (fun b s => rfl) s
  | plain e hid =>
    obtain ⟨-, -, hwide, -⟩ := h
    simp only [CsaElem.apply, CsaFields.plain, CsaElem.segs, CsaElem.wides, Elem.wides]
    by_cases hc : e.id = eidChannelSwitch
    · simp [hc, hcw]
    by_cases ho : e.id = eidSecondaryChannelOffset
    · simp [ho, hco.symm, how]
    by_cases hw : e.id = eidWideBandwidthChannelSwitch
    · simp [hw, hcw.symm, how.symm, hwide hw, CsaFields.wide]
    by_cases he : e.id = eidEcsa
    · simp [he, hce.symm, hoe.symm, hwe.symm, CsaFields.ecsa]
    · simp [hc, ho, hw, he]

end Lists

section Loop

variable {p : Bytes} {n : ℕ} {L : List CsaElem} {c : CsaConfig} {rfctl : RfCtl}

/-- When nothing is read behind the buffer. -/
theorem insideOf_processCsaIe_iff : InsideOf (processCsaIe c rfctl p n) n ↔
    (c.blocks rfctl = false →
      ∀ q t, csaWalk.Visits p n (.start rfctl) q t → CsaFits p n q t) := by
  have hwalk : InsideOf (csaWalk.outcome p n (.start rfctl)) n ↔
      ∀ q t, csaWalk.Visits p n (.start rfctl) q t → CsaFits p n q t :=
    ElemWalk.insideOf_outcome_iff.trans
      (forall₂_congr fun _ _ => imp_congr_right fun _ => csaWalk_staysAt)
  unfold processCsaIe
  cases hblocks : c.blocks rfctl with
  | true =>
    rw [if_pos rfl]
    exact iff_of_true ⟨rfl, fun a ha => absurd ha List.not_mem_nil⟩ fun h => absurd h (by decide)
  | false =>
    rw [if_neg (by decide)]
    refine Iff.trans ⟨?_, ?_⟩ (hwalk.trans ⟨fun h _ => h, fun h => h rfl⟩)
    · rintro ⟨-, hreads⟩
      exact ⟨ElemWalk.isSome_run .., hreads⟩
    · rintro ⟨hends, hreads⟩
      exact ⟨Option.isSome_map.trans hends, hreads⟩

/-- **When a switch is scheduled as the list announces it**, for a list of whole elements, or while
a switch is under way for any list. -/
theorem schedulesLast_iff (c : CsaConfig) (rfctl : RfCtl)
    (h : c.blocks rfctl = false → ∀ x ∈ L, x.Whole) (rest : Bytes) :
    ∃ r, (processCsaIe c rfctl (encode (L.map CsaElem.elem) ++ rest)
        (encode (L.map CsaElem.elem)).length).result = some r ∧
      (SchedulesLast L r ↔ Timely c rfctl L) := by
  unfold processCsaIe
  cases hblocks : c.blocks rfctl with
  | true =>
    refine ⟨(rfctl, none), by rw [if_pos rfl], ?_⟩
    constructor
    · rintro ⟨hscheduled, -, -, -, -⟩
      have hzero : ∀ a ∈ L.flatMap CsaElem.announcements, a.1 = 0 := by
        intro a ha
        by_contra hne
        exact absurd (hscheduled.mpr ⟨a, ha, hne⟩) Bool.false_ne_true
      refine ⟨fun _ => hzero, fun _ => hzero, ?_⟩
      rintro ⟨a, ha, hne⟩
      exact absurd (hzero a ha) hne
    · rintro ⟨hblocked, -, -⟩
      have hnone : ¬(none : Option ℕ).isSome = true := by decide
      refine ⟨⟨fun hsome => absurd hsome hnone, ?_⟩, fun h => absurd h hnone,
        fun h => absurd h hnone, fun h => absurd h hnone, fun h => absurd h hnone⟩
      rintro ⟨a, ha, hne⟩
      exact absurd (hblocked hblocks a ha) hne
  | false =>
    have h := h hblocks
    have hrun := csaWalk_run h rest (.start rfctl)
    have hchannel := @foldl_lastOr _ _ _ (fun s : CsaFields => (s.ch, s.csaSwitchCnt))
      CsaElem.announcements CsaElem.apply L (fun x hx => channel_apply (h x hx)) (.start rfctl)
    have hoffset := @foldl_lastOr _ _ _ (fun s : CsaFields => s.csaChOffset)
      (fun x => x.secondary.map takenOffset) CsaElem.apply L (fun x hx => offset_apply (h x hx))
      (.start rfctl)
    have hwidth := @foldl_lastOr _ _ _ (fun s : CsaFields => s.csaChWidth) CsaElem.widths
      CsaElem.apply L (fun x hx => width_apply (h x hx)) (.start rfctl)
    have hsegs := @foldl_lastOr _ _ _ (fun s : CsaFields => (s.csaChFreqSeg0, s.csaChFreqSeg1))
      CsaElem.segs CsaElem.apply L (fun x hx => segs_apply (h x hx)) (.start rfctl)
    generalize L.foldl (fun s x => x.apply s) (.start rfctl) = fields
      at hrun hchannel hoffset hwidth hsegs
    refine ⟨scheduleCsa c rfctl fields, ?_, ?_⟩
    · rw [if_neg (by decide)]
      exact congrArg (Option.map (scheduleCsa c rfctl)) hrun
    have hch : fields.ch = (lastOr (L.flatMap CsaElem.announcements) (0, 0)).1 :=
      congrArg Prod.fst hchannel
    have hsome : (scheduleCsa c rfctl fields).2.isSome ↔ fields.ch ≠ 0 := by
      unfold scheduleCsa
      by_cases hzero : fields.ch = 0 <;> simp [hzero]
    have hfields : fields.ch ≠ 0 →
        (scheduleCsa c rfctl fields).1.csaCh = fields.ch ∧
        (scheduleCsa c rfctl fields).1.csaSwitchCnt = fields.csaSwitchCnt ∧
        (scheduleCsa c rfctl fields).1.csaChOffset = fields.csaChOffset ∧
        (scheduleCsa c rfctl fields).1.csaChWidth = fields.csaChWidth ∧
        (scheduleCsa c rfctl fields).1.csaChFreqSeg0 = fields.csaChFreqSeg0 ∧
        (scheduleCsa c rfctl fields).1.csaChFreqSeg1 = fields.csaChFreqSeg1 := by
      intro hne
      unfold scheduleCsa
      rw [if_pos hne]
      exact ⟨rfl, rfl, rfl, rfl, rfl, rfl⟩
    have htaken : fields.csaChOffset =
        takenOffset (lastOr (L.flatMap CsaElem.secondary) (false, 0)) := by
      rw [hoffset, ← List.map_flatMap]
      exact lastOr_map takenOffset _ (false, 0)
    have htold : lastOr (L.flatMap CsaElem.offsets) 0 =
        CsaElem.toldOffset (lastOr (L.flatMap CsaElem.secondary) (false, 0)) := by
      unfold CsaElem.offsets
      rw [← List.map_flatMap]
      exact lastOr_map CsaElem.toldOffset _ (false, 0)
    constructor
    · rintro ⟨hscheduled, -, hoffsets, -, -⟩
      refine ⟨fun htrue => absurd (hblocks.symm.trans htrue) (by decide), fun hlast a ha => ?_,
        fun hsomewhere => ?_⟩
      · by_contra hne
        exact hsome.mp (hscheduled.mpr ⟨a, ha, hne⟩) (hch.trans hlast)
      · have h' := hscheduled.mpr hsomewhere
        rw [← takenOffset_eq_iff, ← htaken, ← htold, ← hoffsets h']
        exact (hfields (hsome.mp h')).2.2.1.symm
    · rintro ⟨-, hlast, hsecondary⟩
      have hsomewhere : (scheduleCsa c rfctl fields).2.isSome →
          ∃ a ∈ L.flatMap CsaElem.announcements, a.1 ≠ 0 := by
        intro h
        have hne := hsome.mp h
        rw [hch] at hne
        exact ⟨_, mem_of_lastOr_ne hne, hne⟩
      refine ⟨⟨hsomewhere, ?_⟩, fun h => ?_, fun h => ?_, fun h => ?_, fun h => ?_⟩
      · rintro ⟨a, ha, hne⟩
        exact hsome.mpr fun hzero => hne (hlast (hch.symm.trans hzero) a ha)
      · obtain ⟨hcsaCh, hcnt, -, -, -, -⟩ := hfields (hsome.mp h)
        rw [hcsaCh, hcnt]
        exact hchannel
      · obtain ⟨-, -, hcsaOffset, -, -, -⟩ := hfields (hsome.mp h)
        rw [hcsaOffset, htaken, htold]
        exact (takenOffset_eq_iff _).mpr (hsecondary (hsomewhere h))
      · obtain ⟨-, -, -, hcsaWidth, -, -⟩ := hfields (hsome.mp h)
        exact hcsaWidth.trans hwidth
      · obtain ⟨-, -, -, -, hseg0, hseg1⟩ := hfields (hsome.mp h)
        rw [hseg0, hseg1]
        exact hsegs

end Loop

end Rtl88x2eu.Ie
