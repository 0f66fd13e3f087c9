import Rtl88x2eu.Lib.ElementLoop
import Rtl88x2eu.Lib.Loop
import Rtl88x2eu.Recv.Attrib
import Rtl88x2eu.Rm.System

/-!
# What measurement requests make of their octets

The parser of a request goes through its sub-elements until what is left of the length is zero,
and copies what it knows. An element that does not end where the request does takes the loop past
zero, to the end of the frame; an AP channel report of no octets is copied with a length of -1, and
one of more than eleven channels is read behind its channels when they are scanned.

## Main definitions

* `Fault`, `octet`, `memcpy`: reads of the frame and copies, and how they go wrong
* `rmRecvRadioMensReq`, `rmRecvRadioMensRep`, `rmGetChset`
* `RequestSafe`, `ReportSafe`: nothing goes wrong
* `RequestFits`

## Main results

* `exists_beacon_iff`
* `intake_safe_iff`: when requests and reports are
-/

namespace Rtl88x2eu.Rm.Intake

open ElementLoop

/-- What can go wrong: a read outside the frame or of a channel that was not recorded, a copy of
negative length, a write outside its destination. -/
inductive Fault
  | read | copyLength | write
deriving DecidableEq

abbrev M := Except Fault

def octet (p : Bytes) (i : ℕ) : M UInt8 := if i < p.length then .ok (p.u8 i) else .error .read

def le16 (p : Bytes) (i : ℕ) : M ℕ := do
  let lo ← octet p i
  let hi ← octet p (i + 1)
  pure (lo.toNat + 256 * hi.toNat)

def memcpy (size : ℕ) (src : Bytes) (n : ℤ) : M Bytes :=
  if n < 0 then .error .copyLength
  else if (size : ℤ) < n then .error .write
  else if (src.length : ℤ) < n then .error .read
  else .ok (src.take n.toNat)

/-! ## Sub-elements -/

structure OptRepInfo where
  cond : UInt8 := 0
  threshold : UInt8 := 0

def optRepInfo (src : Bytes) : M OptRepInfo := do
  let b ← memcpy 2 src 2
  pure ⟨b.u8 0, b.u8 1⟩

/-- `RT_OPERATING_CLASS`, with the channels that were written. -/
structure OperatingClass where
  globalOpClass : UInt8
  len : ℤ
  channel : Bytes

/-- `struct bcn_req_opt`, with `p.m_mode`. -/
structure BcnReqOpt where
  /-- The ids that were put into `opt_id`. -/
  optId : Bytes := []
  repDetail : UInt8 := 0
  ssidLength : UInt8 := 0
  ssid : Bytes := []
  repCond : OptRepInfo := {}
  apChRpt : List OperatingClass := []
  reqStart : Option Bytes := none
  reqLen : UInt8 := 0
  incap : Bool := false

def bcnReqOptMaxNum : ℕ := 16
def bcnReqOptApChRptMaxNum : ℕ := 12
def maxChNumInOpClass : ℕ := 11

def bcnReqSsid : UInt8 := 0
def bcnReqRepInfo : UInt8 := 1
def bcnReqRepDetail : UInt8 := 2
def bcnReqReq : UInt8 := 10
def bcnReqApChRep : UInt8 := 51

def BcnReqOpt.count (s : BcnReqOpt) (id : UInt8) : M BcnReqOpt :=
  if s.optId.length < bcnReqOptMaxNum then .ok { s with optId := s.optId ++ [id] }
  else .error .write

variable (malloc : Elem → Bool)

/-- The case `bcn_req_ap_ch_rep`; what `rtw_malloc` returns is not checked. -/
def apChRep (s : BcnReqOpt) (e : Elem) : M BcnReqOpt := do
  let s ← s.count e.id
  let n : ℤ := e.len.toNat - 1
  if !malloc e then .error .write
  else do
    let opClass ← octet e.rest 0
    let channel ← memcpy maxChNumInOpClass (e.rest.drop 1) (min n maxChNumInOpClass)
    pure { s with apChRpt := s.apChRpt ++ [⟨opClass, n, channel⟩] }

def bcnElem (repCond : Bool) (s : BcnReqOpt) (e : Elem) : M BcnReqOpt :=
  if e.id = bcnReqSsid then do
    let ssid ← memcpy 32 e.rest (min e.len.toNat 31 : ℕ)
    { s with ssidLength := e.len, ssid }.count e.id
  else if e.id = bcnReqRepInfo then do
    let c ← optRepInfo e.rest
    pure { s with incap := s.incap || !repCond, repCond := c }
  else if e.id = bcnReqRepDetail then do
    let d ← octet e.rest 0
    { s with repDetail := d }.count e.id
  else if e.id = bcnReqReq then
    if malloc e then do
      let b ← memcpy e.len.toNat e.rest e.len.toNat
      { s with reqStart := some b, reqLen := e.len }.count e.id
    else pure { s with reqStart := none }
  else if e.id = bcnReqApChRep then
    if bcnReqOptApChRptMaxNum ≤ s.apChRpt.length then pure s else apChRep malloc s e
  else pure s

def rmParseBcnReqSElem (repCond : Bool) (p : Bytes) (len : ℤ) (s : BcnReqOpt) : M BcnReqOpt :=
  loop (fun s => decide (bcnReqOptMaxNum ≤ s.optId.length)) (bcnElem malloc repCond) .read len s
    (elems p)

/-- A round of `rm_parse_ch_load_s_elem` and of `rm_parse_noise_histo_s_elem`. -/
def repInfoElem (c : OptRepInfo) (e : Elem) : M OptRepInfo :=
  if e.id = 1 then optRepInfo e.rest else pure c

/-- The two loops; they check for the capability that the request was checked for before. -/
def rmParseRepInfoSElem (p : Bytes) (len : ℤ) : M OptRepInfo :=
  loop (fun _ => false) repInfoElem .read len {} (elems p)

/-- `struct rm_meas_req`, with `p.m_mode`; `opt` is a union, and where `clm` or `nhm` was written
`opt.bcn.ap_ch_rpt_num` is still zero. -/
structure MeasReq where
  diagToken : UInt8
  rpt : ℕ
  eId : UInt8
  mToken : UInt8
  mMode : UInt8
  mType : UInt8
  opClass : UInt8 := 0
  chNum : UInt8 := 0
  randIntvl : ℕ := 0
  measDur : ℕ := 0
  bssid : Bytes := []
  optSElemLen : ℤ := 0
  bcn : BcnReqOpt := {}
  repInfo : OptRepInfo := {}
  incap : Bool := false

/-- The sub-elements of a beacon request, behind `bssid`. -/
def parseBeacon (enCap : ℕ → Bool) (body : Bytes) (len : ℤ) (q : MeasReq) : M MeasReq := do
  let mMode ← octet body 11
  let bssid ← memcpy 6 (body.drop 12) 6
  let q := { q with mMode, bssid, bcn := { repDetail := 2 } }
  if len ≤ 0 then pure q
  else do
    let bcn ← rmParseBcnReqSElem malloc (enCap rmBcnMeasRepCondCapEn) (body.drop 18) len q.bcn
    pure { q with bcn, optSElemLen := len, incap := q.incap || bcn.incap }

/-- The sub-elements of the other requests. -/
def parseRepInfo (body : Bytes) (len : ℤ) (q : MeasReq) : M MeasReq :=
  if len ≤ 0 then pure q
  else do
    let repInfo ← rmParseRepInfoSElem (body.drop 11) len
    pure { q with repInfo, optSElemLen := len }

def rmParseMeasReq (enCap : ℕ → Bool) (body : Bytes) (q : MeasReq) : M MeasReq := do
  let reqLen ← octet body 1
  let opClass ← octet body 5
  let chNum ← octet body 6
  let randIntvl ← le16 body 7
  let measDur ← le16 body 9
  let q := { q with opClass, chNum, randIntvl, measDur }
  if q.mType.toNat = bcnReq then parseBeacon malloc enCap body (reqLen.toNat - 16) q
  else parseRepInfo body (reqLen.toNat - 9) q

/-- What `rm_recv_radio_mens_req` stores; `none` if it returns before. -/
def rmRecvRadioMensReq (enCap : ℕ → Bool) (body : Bytes) : M (Option MeasReq) := do
  let diagToken ← octet body 2
  let rpt ← le16 body 3
  let eId ← octet body 5
  let mToken ← octet body 7
  let mMode ← octet body 8
  let mType ← octet body 9
  let r : RadioReq := { aid := 0, diagToken := 0, mMode := mMode.toNat, mType := mType.toNat }
  let q : MeasReq := { diagToken, rpt, eId, mToken, mMode, mType, incap := !r.capable enCap }
  if eId ≠ 38 then pure none
  else if mType.toNat = bcnReq ∨ mType.toNat = chLoadReq ∨ mType.toNat = noiseHistoReq then do
    let q ← rmParseMeasReq malloc enCap (body.drop 5) q
    pure (some q)
  else pure (some q)

/-- A round of `cnt_rm_report_ies` at `pos`. -/
def cntPass (eid : UInt8) (buf : Bytes) (s : ℕ × UInt8) : ℕ × UInt8 ⊕ M UInt8 :=
  if s.1 + 1 < buf.length then
    match octet buf s.1, octet buf (s.1 + 1) with
    | .ok id, .ok len => .inl (s.1 + 2 + len.toNat, if id = eid then s.2 + 1 else s.2)
    | _, _ => .inr (.error .read)
  else .inr (.ok s.2)

/-- `rm_recv_radio_mens_rep`: whether there is an object with its id, and whether it is one of a
beacon request that came from an ioctl. The octets that are counted are all behind the token. -/
def rmRecvRadioMensRep (found upward : Bool) (body : Bytes) : M (Option UInt8) := do
  let _ ← octet body 2
  if !found then pure none
  else do
    let _ ← octet body 1
    let eId ← octet body 3
    let _ ← octet body 5
    let _ ← octet body 6
    let _ ← octet body 7
    if eId ≠ 39 ∨ !upward then pure none
    else do
      let buf := body.drop 3
      let cnt ← (Loop.iterate (cntPass 39 buf) (buf.length + 1) (0, 0)).getD (.error .read)
      pure (some cnt)

def rtwOpClassUs : List (UInt8 × Bytes) :=
  [(0, []), (115, [36, 40, 44, 48]), (118, [52, 56, 60, 64]), (124, [149, 153, 157, 161]),
    (121, [100, 104, 108, 112, 116, 120, 124, 128, 132, 136, 140]),
    (125, [149, 153, 157, 161, 165]), (81, [1, 2, 3, 4, 5, 6, 7, 8, 9, 10, 11])]

def rtwChannelScanAmount : ℕ := 51

/-- `rm_get_ch_set`: the channels that are written. -/
def rmGetChSet (opClass chNum : UInt8) : Bytes :=
  if chNum ≠ 0 then [chNum] else (rtwOpClassUs.lookup opClass).getD []

def pushChannel (r : OperatingClass) (ks : Bytes) (j : ℕ) : M Bytes := do
  let c ← octet r.channel j
  if ks.length < rtwChannelScanAmount then pure (ks ++ [c]) else .error .write

def rmGetChSetFromBcnReqOpt (rs : List OperatingClass) : M Bytes :=
  rs.foldlM (fun ks r => (List.range r.len.toNat).foldlM (pushChannel r) ks) []

def rmGetChset (q : MeasReq) : M (Bytes × UInt8) := do
  let ks ← (if q.chNum = 255 then rmGetChSetFromBcnReqOpt q.bcn.apChRpt
    else pure (rmGetChSet q.opClass q.chNum) : M Bytes)
  pure (ks, UInt8.ofNat ks.length)

def RequestSafe (enCap : ℕ → Bool) (body : Bytes) : Prop :=
  ∃ r, rmRecvRadioMensReq malloc enCap body = .ok r ∧
    ∀ q, r = some q → ∃ ks amount, rmGetChset q = .ok (ks, amount) ∧ amount.toNat = ks.length

def ReportSafe (found upward : Bool) (body : Bytes) : Prop :=
  ∃ r, rmRecvRadioMensRep found upward body = .ok r

section Copies

variable {p : Bytes} {i size : ℕ} {n : ℤ} {b : Bytes} {x : UInt8}

theorem octet_ok : octet p i = .ok x ↔ i < p.length ∧ x = p.u8 i := by
  unfold octet
  split_ifs with h
  · simp [h, eq_comm]
  · simp [h]

theorem memcpy_ok :
    memcpy size p n = .ok b ↔ 0 ≤ n ∧ n ≤ size ∧ n ≤ p.length ∧ b = p.take n.toNat := by
  unfold memcpy
  split_ifs with hneg hsize hlen
  · exact iff_of_false (by simp) fun h => absurd h.1 (by omega)
  · exact iff_of_false (by simp) fun h => absurd h.2.1 (by omega)
  · exact iff_of_false (by simp) fun h => absurd h.2.2.1 (by omega)
  · rw [Except.ok.injEq, eq_comm]
    exact ⟨fun h => ⟨by omega, by omega, by omega, h⟩, fun h => h.2.2.2⟩

theorem count_ok {s s' : BcnReqOpt} {id : UInt8} :
    s.count id = .ok s' ↔
      s.optId.length < bcnReqOptMaxNum ∧ s' = { s with optId := s.optId ++ [id] } := by
  unfold BcnReqOpt.count
  split_ifs with h
  · rw [Except.ok.injEq, eq_comm]
    exact (and_iff_right h).symm
  · exact iff_of_false (by simp) fun hok => h hok.1

theorem exists_optRepInfo : (∃ c, optRepInfo p = .ok c) ↔ 2 ≤ p.length := by
  unfold optRepInfo
  simp only [bind_ok, memcpy_ok]
  constructor
  · rintro ⟨c, b, ⟨-, -, hlen, -⟩, -⟩
    exact_mod_cast hlen
  · intro hlen
    exact ⟨_, _, ⟨by decide, by decide, by exact_mod_cast hlen, rfl⟩, rfl⟩

end Copies

/-! ## The sub-elements of a beacon request -/

/-- How many options there have been, and of how many channels the reports are. -/
structure Tally where
  options : ℕ := 0
  lists : List ℕ := []

def Tally.next (t : Tally) (e : Elem) : Tally :=
  if e.id = bcnReqSsid ∨ e.id = bcnReqRepDetail ∨ e.id = bcnReqReq ∧ malloc e then
    { t with options := t.options + 1 }
  else if e.id = bcnReqApChRep ∧ t.lists.length < bcnReqOptApChRptMaxNum then
    ⟨t.options + 1, t.lists ++ [e.len.toNat - 1]⟩
  else t

def Whole (t : Tally) (e : Elem) : Prop :=
  if e.id = bcnReqSsid then min e.len.toNat 31 ≤ e.rest.length ∧ t.options < bcnReqOptMaxNum
  else if e.id = bcnReqRepInfo then 2 ≤ e.rest.length
  else if e.id = bcnReqRepDetail then 0 < e.rest.length ∧ t.options < bcnReqOptMaxNum
  else if e.id = bcnReqReq then
    malloc e → e.len.toNat ≤ e.rest.length ∧ t.options < bcnReqOptMaxNum
  else e.id = bcnReqApChRep → t.lists.length < bcnReqOptApChRptMaxNum →
    t.options < bcnReqOptMaxNum ∧ malloc e ∧ 0 < e.len.toNat ∧
      min e.len.toNat (maxChNumInOpClass + 1) ≤ e.rest.length

def AllWhole : Tally → List Elem → Prop
  | _, [] => True
  | t, e :: es => Whole malloc t e ∧ AllWhole (t.next malloc e) es

def BcnReqOpt.tally (s : BcnReqOpt) : Tally :=
  ⟨s.optId.length, s.apChRpt.map fun r => r.len.toNat⟩

def Recorded (r : OperatingClass) : Prop :=
  r.channel.length = min r.len.toNat maxChNumInOpClass

section Beacon

variable {malloc} {repCond : Bool} {s s' : BcnReqOpt} {e : Elem} {es : List Elem}

theorem apChRep_ok : apChRep malloc s e = .ok s' ↔
    s.optId.length < bcnReqOptMaxNum ∧ malloc e ∧ 0 < e.len.toNat ∧
      min e.len.toNat (maxChNumInOpClass + 1) ≤ e.rest.length ∧
      s' = { s with
        optId := s.optId ++ [e.id]
        apChRpt := s.apChRpt ++ [⟨Bytes.u8 e.rest 0, e.len.toNat - 1,
          (e.rest.drop 1).take (min (e.len.toNat - 1) maxChNumInOpClass)⟩] } := by
  have hmax : (maxChNumInOpClass : ℤ) = 11 := rfl
  have hmax' : maxChNumInOpClass = 11 := rfl
  unfold apChRep
  simp only [bind_ok, count_ok]
  constructor
  · rintro ⟨t, ⟨hcount, rfl⟩, h⟩
    cases hmalloc : malloc e with
    | false =>
      rw [hmalloc] at h
      cases h
    | true =>
      rw [hmalloc] at h
      simp only [Bool.not_true, Bool.false_eq_true, if_false, bind_ok, octet_ok, memcpy_ok,
        pure_ok] at h
      obtain ⟨x, ⟨hx, rfl⟩, b, ⟨hpos, -, hlen, rfl⟩, rfl⟩ := h
      rw [List.length_drop] at hlen
      refine ⟨hcount, rfl, by omega, by omega, ?_⟩
      rw [show (min ((e.len.toNat : ℤ) - 1) maxChNumInOpClass).toNat =
        min (e.len.toNat - 1) maxChNumInOpClass by omega]
  · rintro ⟨hcount, hmalloc, hpos, hlen, rfl⟩
    refine ⟨_, ⟨hcount, rfl⟩, ?_⟩
    simp only [hmalloc, Bool.not_true, Bool.false_eq_true, if_false, bind_ok, octet_ok, memcpy_ok,
      pure_ok]
    refine ⟨_, ⟨by omega, rfl⟩, _, ⟨by omega, by omega, ?_, rfl⟩, ?_⟩
    · rw [List.length_drop]
      omega
    · rw [show (min ((e.len.toNat : ℤ) - 1) maxChNumInOpClass).toNat =
        min (e.len.toNat - 1) maxChNumInOpClass by omega]

/-- **What a round does**: it goes well exactly if the sub-element is whole, and counts it. -/
theorem bcnElem_spec (h : bcnElem malloc repCond s e = .ok s') :
    Whole malloc s.tally e ∧ s'.tally = s.tally.next malloc e ∧
      (s'.apChRpt = s.apChRpt ∨ ∃ r, Recorded r ∧ s'.apChRpt = s.apChRpt ++ [r]) := by
  unfold bcnElem at h
  unfold Whole Tally.next
  by_cases h0 : e.id = bcnReqSsid
  · simp only [h0, if_true, bind_ok, memcpy_ok, count_ok] at h
    obtain ⟨b, ⟨-, -, hlen, rfl⟩, hcount, rfl⟩ := h
    rw [if_pos h0, if_pos (.inl h0)]
    exact ⟨⟨by exact_mod_cast hlen, hcount⟩, by simp [BcnReqOpt.tally], .inl rfl⟩
  by_cases h1 : e.id = bcnReqRepInfo
  · simp only [h1, show bcnReqRepInfo ≠ bcnReqSsid by decide, if_true, if_false, bind_ok,
      pure_ok] at h
    obtain ⟨c, hc, rfl⟩ := h
    rw [if_neg h0, if_pos h1, if_neg (by simp [h1, bcnReqRepInfo, bcnReqSsid, bcnReqRepDetail,
      bcnReqReq]), if_neg (by simp [h1, bcnReqRepInfo, bcnReqApChRep])]
    exact ⟨exists_optRepInfo.1 ⟨c, hc⟩, rfl, .inl rfl⟩
  by_cases h2 : e.id = bcnReqRepDetail
  · rw [if_neg h0, if_neg h1, if_pos h2] at h
    simp only [bind_ok, octet_ok, count_ok] at h
    obtain ⟨d, ⟨hlen, rfl⟩, hcount, rfl⟩ := h
    rw [if_neg h0, if_neg h1, if_pos h2, if_pos (.inr (.inl h2))]
    exact ⟨⟨hlen, hcount⟩, by simp [BcnReqOpt.tally], .inl rfl⟩
  by_cases h3 : e.id = bcnReqReq
  · rw [if_neg h0, if_neg h1, if_neg h2, if_pos h3] at h
    rw [if_neg h0, if_neg h1, if_neg h2, if_pos h3]
    cases hmalloc : malloc e with
    | false =>
      simp only [hmalloc, Bool.false_eq_true, if_false, pure_ok] at h
      subst h
      rw [if_neg (by simp [h0, h2]), if_neg (by simp [h3, bcnReqReq, bcnReqApChRep])]
      exact ⟨fun h => absurd h Bool.false_ne_true, rfl, .inl rfl⟩
    | true =>
      simp only [hmalloc, if_true, bind_ok, memcpy_ok, count_ok] at h
      obtain ⟨b, ⟨-, -, hlen, rfl⟩, hcount, rfl⟩ := h
      rw [if_pos (by simp [h3])]
      exact ⟨fun _ => ⟨by exact_mod_cast hlen, hcount⟩, by simp [BcnReqOpt.tally], .inl rfl⟩
  rw [if_neg h0, if_neg h1, if_neg h2, if_neg h3] at h
  rw [if_neg h0, if_neg h1, if_neg h2, if_neg h3,
    if_neg (not_or.2 ⟨h0, not_or.2 ⟨h2, fun h => h3 h.1⟩⟩)]
  have hlists : s.tally.lists.length = s.apChRpt.length := List.length_map _
  by_cases h4 : e.id = bcnReqApChRep
  · rw [if_pos h4] at h
    by_cases hmax : bcnReqOptApChRptMaxNum ≤ s.apChRpt.length
    · rw [if_pos hmax, pure_ok] at h
      subst h
      rw [if_neg fun h => absurd h.2 (by omega)]
      exact ⟨fun _ hlt => absurd hlt (by omega), rfl, .inl rfl⟩
    · rw [if_neg hmax, apChRep_ok] at h
      obtain ⟨hcount, hmalloc, hpos, hlen, rfl⟩ := h
      rw [if_pos ⟨h4, by omega⟩]
      refine ⟨fun _ _ => ⟨hcount, hmalloc, hpos, hlen⟩, ?_, .inr ⟨_, ?_, rfl⟩⟩
      · simp [BcnReqOpt.tally]
      · show (List.take _ _).length = _
        rw [List.length_take, List.length_drop]
        have hmax' : maxChNumInOpClass = 11 := rfl
        dsimp only
        omega
  · rw [if_neg h4, pure_ok] at h
    subst h
    rw [if_neg fun h => h4 h.1]
    exact ⟨fun h => absurd h h4, rfl, .inl rfl⟩

theorem exists_bcnElem (h : Whole malloc s.tally e) :
    ∃ s', bcnElem malloc repCond s e = .ok s' := by
  have hlists : s.tally.lists.length = s.apChRpt.length := List.length_map _
  unfold Whole at h
  unfold bcnElem
  split_ifs with h0 h1 h2 h3 h4 h5 h6
  · rw [if_pos h0] at h
    simp only [bind_ok, memcpy_ok, count_ok]
    exact ⟨_, _, ⟨by omega, by omega, by exact_mod_cast h.1, rfl⟩, h.2, rfl⟩
  · rw [if_neg h0, if_pos h1] at h
    simp only [bind_ok, pure_ok]
    obtain ⟨c, hc⟩ := exists_optRepInfo.2 h
    exact ⟨_, c, hc, rfl⟩
  · rw [if_neg h0, if_neg h1, if_pos h2] at h
    simp only [bind_ok, octet_ok, count_ok]
    exact ⟨_, _, ⟨h.1, rfl⟩, h.2, rfl⟩
  · rw [if_neg h0, if_neg h1, if_neg h2, if_pos h3] at h
    obtain ⟨hlen, hcount⟩ := h h4
    simp only [bind_ok, memcpy_ok, count_ok]
    exact ⟨_, _, ⟨by omega, le_rfl, by exact_mod_cast hlen, rfl⟩, hcount, rfl⟩
  · exact ⟨_, rfl⟩
  · exact ⟨_, rfl⟩
  · rw [if_neg h0, if_neg h1, if_neg h2, if_neg h3] at h
    obtain ⟨hcount, hmalloc, hpos, hlen⟩ := h h5 (by omega)
    exact ⟨_, apChRep_ok.2 ⟨hcount, hmalloc, hpos, hlen, rfl⟩⟩
  · exact ⟨_, rfl⟩

theorem foldlM_bcnElem (h : es.foldlM (bcnElem malloc repCond) s = .ok s')
    (hs : ∀ r ∈ s.apChRpt, Recorded r) :
    AllWhole malloc s.tally es ∧ s'.tally = es.foldl (Tally.next malloc) s.tally ∧
      ∀ r ∈ s'.apChRpt, Recorded r := by
  induction es generalizing s with
  | nil =>
    obtain rfl := Except.ok.inj h
    exact ⟨trivial, rfl, hs⟩
  | cons e es ih =>
    obtain ⟨t, ht, h⟩ := foldlM_cons_ok.1 h
    obtain ⟨hwhole, htally, hrpt⟩ := bcnElem_spec ht
    have hrec : ∀ r ∈ t.apChRpt, Recorded r := by
      obtain heq | ⟨x, hx, heq⟩ := hrpt
      · rwa [heq]
      · intro r hr
        rw [heq, List.mem_append, List.mem_singleton] at hr
        obtain hr | rfl := hr
        · exact hs r hr
        · exact hx
    obtain ⟨hall, htally', hrec'⟩ := ih h hrec
    rw [htally] at hall htally'
    exact ⟨⟨hwhole, hall⟩, htally', hrec'⟩

theorem exists_foldlM_bcnElem (h : AllWhole malloc s.tally es) :
    ∃ s', es.foldlM (bcnElem malloc repCond) s = .ok s' := by
  induction es generalizing s with
  | nil => exact ⟨s, rfl⟩
  | cons e es ih =>
    obtain ⟨hwhole, hall⟩ := h
    obtain ⟨t, ht⟩ := @exists_bcnElem _ repCond _ _ hwhole
    rw [← (bcnElem_spec ht).2.1] at hall
    obtain ⟨s', hs'⟩ := ih hall
    exact ⟨s', foldlM_cons_ok.2 ⟨t, ht, hs'⟩⟩

end Beacon

/-! ## The channels of a request -/

section Channels

variable {r : OperatingClass} {rs : List OperatingClass} {ks ks' : Bytes} {n : ℕ}

theorem pushChannel_ok : pushChannel r ks n = .ok ks' ↔
    n < r.channel.length ∧ ks.length < rtwChannelScanAmount ∧ ks' = ks ++ [r.channel.u8 n] := by
  unfold pushChannel
  simp only [bind_ok, octet_ok]
  constructor
  · rintro ⟨c, ⟨hn, rfl⟩, h⟩
    split_ifs at h with hks
    exact ⟨hn, hks, pure_ok.1 h⟩
  · rintro ⟨hn, hks, rfl⟩
    exact ⟨_, ⟨hn, rfl⟩, by rw [if_pos hks]; rfl⟩

theorem pushChannels_succ : (List.range (n + 1)).foldlM (pushChannel r) ks = .ok ks' ↔
    ∃ t, (List.range n).foldlM (pushChannel r) ks = .ok t ∧ pushChannel r t n = .ok ks' := by
  rw [List.range_succ, List.foldlM_append, bind_ok]
  simp only [foldlM_cons_ok, List.foldlM_nil, pure_ok, exists_eq_right']

theorem pushChannels_ok (h : (List.range n).foldlM (pushChannel r) ks = .ok ks')
    (hks : ks.length ≤ rtwChannelScanAmount) :
    n ≤ r.channel.length ∧ ks'.length = ks.length + n ∧ ks'.length ≤ rtwChannelScanAmount := by
  induction n generalizing ks' with
  | zero =>
    obtain rfl := Except.ok.inj h
    exact ⟨Nat.zero_le _, rfl, hks⟩
  | succ n ih =>
    obtain ⟨t, ht, h⟩ := pushChannels_succ.1 h
    obtain ⟨hn, hlt, rfl⟩ := pushChannel_ok.1 h
    obtain ⟨-, hlen, -⟩ := ih ht
    rw [List.length_append, List.length_singleton]
    exact ⟨hn, by omega, hlt⟩

theorem exists_pushChannels (hn : n ≤ r.channel.length)
    (hks : ks.length + n ≤ rtwChannelScanAmount) :
    ∃ ks', (List.range n).foldlM (pushChannel r) ks = .ok ks' := by
  induction n with
  | zero => exact ⟨ks, rfl⟩
  | succ n ih =>
    obtain ⟨t, ht⟩ := ih (by omega) (by omega)
    obtain ⟨-, hlen, -⟩ := pushChannels_ok ht (by omega)
    exact ⟨_, pushChannels_succ.2 ⟨t, ht, pushChannel_ok.2 ⟨hn, by omega, rfl⟩⟩⟩

theorem pushReports_ok
    (h : rs.foldlM (fun ks r => (List.range r.len.toNat).foldlM (pushChannel r) ks) ks = .ok ks')
    (hks : ks.length ≤ rtwChannelScanAmount) :
    (∀ r ∈ rs, r.len.toNat ≤ r.channel.length) ∧
      ks'.length = ks.length + (rs.map fun r => r.len.toNat).sum ∧
      ks'.length ≤ rtwChannelScanAmount := by
  induction rs generalizing ks with
  | nil =>
    obtain rfl := Except.ok.inj h
    exact ⟨by simp, rfl, hks⟩
  | cons r rs ih =>
    obtain ⟨t, ht, h⟩ := foldlM_cons_ok.1 h
    obtain ⟨hr, hlen, hle⟩ := pushChannels_ok ht hks
    obtain ⟨hrs, hlen', hle'⟩ := ih h hle
    refine ⟨List.forall_mem_cons.2 ⟨hr, hrs⟩, ?_, hle'⟩
    rw [List.map_cons, List.sum_cons]
    omega

theorem exists_pushReports (hrs : ∀ r ∈ rs, r.len.toNat ≤ r.channel.length)
    (hks : ks.length + (rs.map fun r => r.len.toNat).sum ≤ rtwChannelScanAmount) :
    ∃ ks', rs.foldlM (fun ks r => (List.range r.len.toNat).foldlM (pushChannel r) ks) ks =
      .ok ks' := by
  induction rs generalizing ks with
  | nil => exact ⟨ks, rfl⟩
  | cons r rs ih =>
    rw [List.map_cons, List.sum_cons] at hks
    obtain ⟨hr, hrs⟩ := List.forall_mem_cons.1 hrs
    obtain ⟨t, ht⟩ := @exists_pushChannels _ ks _ hr (by omega)
    obtain ⟨-, hlen, -⟩ := pushChannels_ok ht (by omega)
    obtain ⟨ks', hks'⟩ := @ih t hrs (by omega)
    exact ⟨ks', foldlM_cons_ok.2 ⟨t, ht, hks'⟩⟩

def ChannelsFit (lists : List ℕ) : Prop :=
  (∀ n ∈ lists, n ≤ maxChNumInOpClass) ∧ lists.sum ≤ rtwChannelScanAmount

theorem exists_chSet_iff (hrec : ∀ r ∈ rs, Recorded r) :
    (∃ ks, rmGetChSetFromBcnReqOpt rs = .ok ks) ↔ ChannelsFit (rs.map fun r => r.len.toNat) := by
  have hread (r : OperatingClass) (hr : r ∈ rs) :
      r.len.toNat ≤ r.channel.length ↔ r.len.toNat ≤ maxChNumInOpClass := by
    rw [hrec r hr, le_min_iff]
    exact and_iff_right le_rfl
  unfold rmGetChSetFromBcnReqOpt ChannelsFit
  rw [List.forall_mem_map]
  constructor
  · rintro ⟨ks, hks⟩
    obtain ⟨hrs, hlen, hle⟩ := pushReports_ok hks (by decide)
    rw [List.length_nil, zero_add] at hlen
    exact ⟨fun r hr => (hread r hr).1 (hrs r hr), by omega⟩
  · rintro ⟨hrs, hsum⟩
    exact exists_pushReports (fun r hr => (hread r hr).2 (hrs r hr)) (by simpa using hsum)

theorem length_rmGetChSet (opClass chNum : UInt8) : (rmGetChSet opClass chNum).length ≤ 11 := by
  unfold rmGetChSet
  split_ifs
  · exact Nat.le_add_left 1 10
  · cases hlookup : rtwOpClassUs.lookup opClass with
    | none => decide
    | some ks =>
      have hall : ∀ x ∈ rtwOpClassUs, x.2.length ≤ 11 := by decide
      obtain ⟨l, l', heq, -⟩ := List.lookup_eq_some_iff.1 hlookup
      exact hall (opClass, ks) (by rw [heq]; simp)

theorem exists_rmGetchset_iff (q : MeasReq) :
    (∃ ks amount, rmGetChset q = .ok (ks, amount) ∧ amount.toNat = ks.length) ↔
      (q.chNum = 255 → ∃ ks, rmGetChSetFromBcnReqOpt q.bcn.apChRpt = .ok ks) := by
  unfold rmGetChset
  simp only [bind_ok, pure_ok, Prod.mk.injEq]
  by_cases hch : q.chNum = 255
  · simp only [hch, if_true, true_imp_iff]
    constructor
    · rintro ⟨ks, _, ⟨ks', hks, -⟩, -⟩
      exact ⟨ks', hks⟩
    · rintro ⟨ks, hks⟩
      obtain ⟨-, -, hle⟩ := pushReports_ok hks (by decide)
      refine ⟨ks, _, ⟨ks, hks, rfl, rfl⟩, UInt8.toNat_ofNat_of_lt' ?_⟩
      exact hle.trans_lt (by decide)
  · refine iff_of_true ?_ fun h => absurd h hch
    refine ⟨_, _, ⟨rmGetChSet q.opClass q.chNum, ?_, rfl, rfl⟩, UInt8.toNat_ofNat_of_lt' ?_⟩
    · rw [if_neg hch]
      rfl
    · exact (length_rmGetChSet _ _).trans_lt (by decide)

end Channels

variable {malloc}

def SubElemsFit (malloc : Elem → Bool) (p : Bytes) (len : ℤ) (chNum : UInt8) : Prop :=
  ∃ pre, pre <+: elems p ∧ AllWhole malloc {} pre ∧
    (len = (pre.map Elem.size).sum ∨
      bcnReqOptMaxNum ≤ (pre.foldl (Tally.next malloc) {}).options) ∧
    (chNum = 255 → ChannelsFit (pre.foldl (Tally.next malloc) {}).lists)

/-- When the sub-elements of a beacon request are taken safely. -/
theorem exists_beacon_iff {repCond : Bool} {p : Bytes} {len : ℤ} {chNum : UInt8} :
    (∃ s, rmParseBcnReqSElem malloc repCond p len { repDetail := 2 } = .ok s ∧
      (chNum = 255 → ∃ ks, rmGetChSetFromBcnReqOpt s.apChRpt = .ok ks)) ↔
        SubElemsFit malloc p len chNum := by
  unfold rmParseBcnReqSElem SubElemsFit
  refine (exists_loop_iff ?_).trans (exists_congr fun pre => ?_)
  rotate_left
  · constructor
    · rintro ⟨s, hpre, hfold, hend, hch⟩
      obtain ⟨hwhole, htally, hrec⟩ := foldlM_bcnElem hfold (by simp)
      have htally : s.tally = pre.foldl (Tally.next malloc) {} := htally
      rw [← htally]
      exact ⟨hpre, hwhole, hend.imp id of_decide_eq_true,
        fun h => (exists_chSet_iff hrec).1 (hch h)⟩
    · rintro ⟨hpre, hwhole, hend, hch⟩
      obtain ⟨s, hfold⟩ := @exists_foldlM_bcnElem _ repCond { repDetail := 2 } _ hwhole
      obtain ⟨-, htally, hrec⟩ := foldlM_bcnElem hfold (by simp)
      have htally : s.tally = pre.foldl (Tally.next malloc) {} := htally
      rw [← htally] at hend hch
      exact ⟨s, hpre, hfold, hend.imp id decide_eq_true,
        fun h => (exists_chSet_iff hrec).2 (hch h)⟩
  · -- the channels of fewer reports can be taken where those of more can
    intro s e s' hstep hch h
    obtain ⟨ks, hks⟩ := hch h
    obtain heq | ⟨r, -, heq⟩ := (bcnElem_spec hstep).2.2
    · exact ⟨ks, heq ▸ hks⟩
    · rw [heq, rmGetChSetFromBcnReqOpt, List.foldlM_append, bind_ok] at hks
      obtain ⟨t, ht, -⟩ := hks
      exact ⟨t, ht⟩

theorem exists_foldlM_repInfo {es : List Elem} {c : OptRepInfo} :
    (∃ c', es.foldlM repInfoElem c = .ok c') ↔ ∀ e ∈ es, e.id = 1 → 2 ≤ e.rest.length := by
  have hstep (c : OptRepInfo) (e : Elem) :
      (∃ c', repInfoElem c e = .ok c') ↔ (e.id = 1 → 2 ≤ e.rest.length) := by
    unfold repInfoElem
    split_ifs with hid
    · rw [exists_optRepInfo]
      exact ⟨fun h _ => h, fun h => h hid⟩
    · exact iff_of_true ⟨c, rfl⟩ fun h => absurd h hid
  induction es generalizing c with
  | nil => exact iff_of_true ⟨c, rfl⟩ (by simp)
  | cons e es ih =>
    simp only [foldlM_cons_ok, List.forall_mem_cons]
    constructor
    · rintro ⟨c', t, ht, h⟩
      exact ⟨(hstep c e).1 ⟨t, ht⟩, ih.1 ⟨c', h⟩⟩
    · rintro ⟨he, hes⟩
      obtain ⟨t, ht⟩ := (hstep c e).2 he
      obtain ⟨c', h⟩ := (ih (c := t)).2 hes
      exact ⟨c', t, ht, h⟩

/-- The sub-elements end where the request does, and have their conditions in the frame. -/
def RepInfoFits (p : Bytes) (len : ℤ) : Prop :=
  ∃ pre, pre <+: elems p ∧ (∀ e ∈ pre, e.id = 1 → 2 ≤ e.rest.length) ∧
    len = (pre.map Elem.size).sum

theorem exists_repInfo_iff {p : Bytes} {len : ℤ} :
    (∃ c, rmParseRepInfoSElem p len = .ok c) ↔ RepInfoFits p len := by
  have hloop := @exists_loop_iff _ _ (fun _ => false) repInfoElem Fault.read len {} (elems p)
    (fun _ => True) fun _ _ _ _ _ => trivial
  simp only [and_true, Bool.false_eq_true, or_false] at hloop
  unfold rmParseRepInfoSElem RepInfoFits
  rw [hloop]
  refine exists_congr fun pre => ?_
  rw [← exists_foldlM_repInfo (c := {})]
  constructor
  · rintro ⟨c, hpre, hfold, hlen⟩
    exact ⟨hpre, ⟨c, hfold⟩, hlen⟩
  · rintro ⟨hpre, ⟨c, hfold⟩, hlen⟩
    exact ⟨c, hpre, hfold, hlen⟩

/-! ## Requests and reports -/

section Frames

variable {enCap : ℕ → Bool} {p body : Bytes} {q q' : MeasReq} {i : ℕ} {α β : Type} {P : β → Prop}

theorem exists_pure {b : β} : (∃ b', (pure b : M β) = .ok b' ∧ P b') ↔ P b := by
  simp only [pure_ok, exists_eq_left]

theorem exists_bind {x : M α} {f : α → M β} :
    (∃ b, x >>= f = .ok b ∧ P b) ↔ ∃ a, x = .ok a ∧ ∃ b, f a = .ok b ∧ P b := by
  simp only [bind_ok]
  exact ⟨fun ⟨b, ⟨a, ha, hb⟩, hP⟩ => ⟨a, ha, b, hb, hP⟩,
    fun ⟨a, ha, b, hb, hP⟩ => ⟨b, ⟨a, ha, hb⟩, hP⟩⟩

theorem exists_octet {f : UInt8 → M β} :
    (∃ b, octet p i >>= f = .ok b ∧ P b) ↔ i < p.length ∧ ∃ b, f (p.u8 i) = .ok b ∧ P b := by
  simp only [exists_bind, octet_ok, and_assoc, exists_and_left, exists_eq_left]

theorem exists_le16 {f : ℕ → M β} :
    (∃ b, le16 p i >>= f = .ok b ∧ P b) ↔ i + 1 < p.length ∧
      ∃ b, f ((p.u8 i).toNat + 256 * (p.u8 (i + 1)).toNat) = .ok b ∧ P b := by
  unfold le16
  simp only [bind_assoc, pure_bind, exists_octet]
  exact ⟨fun h => h.2, fun h => ⟨by omega, h⟩⟩

theorem exists_memcpy {size : ℕ} {n : ℤ} {f : Bytes → M β} :
    (∃ b, memcpy size p n >>= f = .ok b ∧ P b) ↔
      (0 ≤ n ∧ n ≤ size ∧ n ≤ p.length) ∧ ∃ b, f (p.take n.toNat) = .ok b ∧ P b := by
  simp only [exists_bind, memcpy_ok, and_assoc, exists_and_left, exists_eq_left]

/-- The channels of a request can be taken. -/
def MeasReq.Scans (q : MeasReq) : Prop :=
  q.chNum = 255 → ∃ ks, rmGetChSetFromBcnReqOpt q.bcn.apChRpt = .ok ks

theorem scans_of_nil (h : q.bcn.apChRpt = []) : q.Scans := fun _ => ⟨[], by rw [h]; rfl⟩

theorem exists_parseBeacon {len : ℤ} :
    (∃ q', parseBeacon malloc enCap body len q = .ok q' ∧ q'.Scans) ↔
      18 ≤ body.length ∧ (0 < len → SubElemsFit malloc (body.drop 18) len q.chNum) := by
  unfold parseBeacon
  rw [exists_octet, exists_memcpy, List.length_drop]
  by_cases hlen : len ≤ 0
  · simp only [hlen, if_true, exists_pure]
    have hscans : MeasReq.Scans { q with
        mMode := body.u8 11, bssid := (body.drop 12).take 6, bcn := { repDetail := 2 } } :=
      scans_of_nil rfl
    exact ⟨fun ⟨_, ⟨_, _, h⟩, _⟩ => ⟨by omega, fun h => absurd h (not_lt.2 hlen)⟩,
      fun h => ⟨by omega, ⟨by omega, by omega, by omega⟩, hscans⟩⟩
  · simp only [hlen, if_false, exists_bind, exists_pure]
    have hbeacon := @exists_beacon_iff malloc (enCap rmBcnMeasRepCondCapEn) (body.drop 18) len
      q.chNum
    constructor
    · rintro ⟨_, ⟨_, _, h⟩, hs⟩
      exact ⟨by omega, fun _ => hbeacon.1 hs⟩
    · rintro ⟨h, hs⟩
      exact ⟨by omega, ⟨by omega, by omega, by omega⟩, hbeacon.2 (hs (not_le.1 hlen))⟩

theorem exists_parseRepInfo {len : ℤ} :
    (∃ q', parseRepInfo body len q = .ok q' ∧ q'.Scans) ↔
      (0 < len → RepInfoFits (body.drop 11) len) ∧ q.Scans := by
  unfold parseRepInfo
  by_cases hlen : len ≤ 0
  · rw [if_pos hlen, exists_pure]
    exact (and_iff_right fun h => absurd h (not_lt.2 hlen)).symm
  · rw [if_neg hlen, exists_bind, ← exists_repInfo_iff]
    simp only [exists_pure]
    exact ⟨fun ⟨c, hc, hq⟩ => ⟨fun _ => ⟨c, hc⟩, hq⟩,
      fun ⟨h, hq⟩ => (h (not_le.1 hlen)).imp fun c hc => ⟨hc, hq⟩⟩

/-- The condition on the octets of a request. -/
def RequestFits (malloc : Elem → Bool) (body : Bytes) : Prop :=
  10 ≤ body.length ∧ (body.u8 5 = 38 →
    ((body.u8 9).toNat = bcnReq → 23 ≤ body.length ∧ (16 < (body.u8 6).toNat →
      SubElemsFit malloc (body.drop 23) ((body.u8 6).toNat - 16) (body.u8 11))) ∧
    ((body.u8 9).toNat = chLoadReq ∨ (body.u8 9).toNat = noiseHistoReq →
      16 ≤ body.length ∧ (9 < (body.u8 6).toNat →
        RepInfoFits (body.drop 16) ((body.u8 6).toNat - 9))))

theorem exists_parseMeasReq (hq : q.bcn.apChRpt = []) (hbody : 10 ≤ body.length) :
    (∃ q', rmParseMeasReq malloc enCap (body.drop 5) q = .ok q' ∧ q'.Scans) ↔
      if q.mType.toNat = bcnReq then 23 ≤ body.length ∧ (16 < (body.u8 6).toNat →
        SubElemsFit malloc (body.drop 23) ((body.u8 6).toNat - 16) (body.u8 11))
      else 16 ≤ body.length ∧ (9 < (body.u8 6).toNat →
        RepInfoFits (body.drop 16) ((body.u8 6).toNat - 9)) := by
  unfold rmParseMeasReq
  simp only [exists_octet, exists_le16, List.length_drop, Bytes.u8_drop, Nat.reduceAdd]
  split_ifs with htype
  · rw [exists_parseBeacon, List.length_drop, List.drop_drop]
    constructor
    · rintro ⟨_, _, _, _, _, hlen, hsub⟩
      exact ⟨by omega, fun h => hsub (by omega)⟩
    · rintro ⟨hlen, hsub⟩
      exact ⟨by omega, by omega, by omega, by omega, by omega, by omega, fun h => hsub (by omega)⟩
  · rw [exists_parseRepInfo, List.drop_drop]
    constructor
    · rintro ⟨_, _, _, _, hlen, hsub, _⟩
      exact ⟨by omega, fun h => hsub (by omega)⟩
    · rintro ⟨hlen, hsub⟩
      exact ⟨by omega, by omega, by omega, by omega, by omega, fun h => hsub (by omega),
        scans_of_nil hq⟩

theorem requestSafe_iff : RequestSafe malloc enCap body ↔ RequestFits malloc body := by
  have htypes : bcnReq ≠ chLoadReq ∧ bcnReq ≠ noiseHistoReq := by decide
  unfold RequestSafe RequestFits rmRecvRadioMensReq
  simp only [exists_rmGetchset_iff, exists_octet, exists_le16]
  by_cases hlen : 10 ≤ body.length
  swap
  · exact iff_of_false (fun h => hlen (by omega)) fun h => hlen h.1
  by_cases heid : body.u8 5 = 38
  swap
  · rw [if_pos heid, exists_pure]
    exact iff_of_true ⟨by omega, by omega, by omega, by omega, by omega, by omega, by simp⟩
      ⟨hlen, fun h => absurd h heid⟩
  have hfixed : ∀ A : Prop, (2 < body.length ∧ 3 + 1 < body.length ∧ 5 < body.length ∧
      7 < body.length ∧ 8 < body.length ∧ 9 < body.length ∧ A) ↔ A := fun A =>
    ⟨fun h => h.2.2.2.2.2.2,
      fun h => ⟨by omega, by omega, by omega, by omega, by omega, by omega, h⟩⟩
  rw [hfixed, if_neg (not_not.2 heid)]
  simp only [hlen, heid, true_and, true_imp_iff]
  have hstored {q : MeasReq} :
      (∀ q', some q = some q' → q'.Scans) ↔ q.Scans :=
    ⟨fun h => h q rfl, fun h q' hq => Option.some.inj hq ▸ h⟩
  split_ifs with htype
  · simp only [exists_bind, exists_pure]
    change (∃ q', _ ∧ ∀ q'' : MeasReq, some q' = some q'' → q''.Scans) ↔ _
    simp only [hstored]
    rw [exists_parseMeasReq rfl hlen]
    dsimp only
    split_ifs with hbcn
    · exact ⟨fun h => ⟨fun _ => h, fun hother => by omega⟩, fun h => h.1 hbcn⟩
    · exact ⟨fun h => ⟨fun hb => absurd hb hbcn, fun _ => h⟩,
        fun h => h.2 (htype.resolve_left hbcn)⟩
  · rw [exists_pure]
    refine iff_of_true ?_ ⟨fun h => absurd (.inl h) htype, fun h => absurd (.inr h) htype⟩
    exact hstored.2 (scans_of_nil rfl)

theorem cntPass_ok {eid : UInt8} {buf : Bytes} {s : ℕ × UInt8} :
    (∃ s', cntPass eid buf s = .inl s' ∧ s.1 < s'.1 ∧ s.1 < buf.length) ∨
      ∃ n, cntPass eid buf s = .inr (.ok n) := by
  unfold cntPass
  by_cases hlt : s.1 + 1 < buf.length
  · left
    rw [if_pos hlt, octet_ok.2 ⟨by omega, rfl⟩, octet_ok.2 ⟨hlt, rfl⟩]
    exact ⟨_, rfl, by dsimp only; omega, by omega⟩
  · right
    exact ⟨s.2, if_neg hlt⟩

/-- **The elements of a report are counted inside the report.** -/
theorem exists_cnt (eid : UInt8) (buf : Bytes) :
    ∃ n, Loop.iterate (cntPass eid buf) (buf.length + 1) (0, 0) = some (.ok n) := by
  have hends : (Loop.iterate (cntPass eid buf) (buf.length + 1) (0, 0)).isSome := by
    refine Loop.isSome_iterate (fun s => buf.length - s.1) (fun s s' h => ?_) (by omega)
    obtain ⟨t, ht, hlt, hbuf⟩ | ⟨n, hn⟩ := @cntPass_ok eid buf s
    · obtain rfl := Sum.inl.inj (ht.symm.trans h)
      omega
    · rw [hn] at h
      cases h
  obtain ⟨r, hr⟩ := Option.isSome_iff_exists.1 hends
  have hok : ∃ n, r = .ok n := by
    refine Loop.iterate_invariant (I := fun _ => True) (P := fun r => ∃ n, r = .ok n)
      (fun _ _ _ _ => trivial) (fun s r _ h => ?_) trivial hr
    obtain ⟨t, ht, -⟩ | ⟨n, hn⟩ := @cntPass_ok eid buf s
    · rw [ht] at h
      cases h
    · exact ⟨n, (Sum.inr.inj (hn.symm.trans h)).symm⟩
  obtain ⟨n, rfl⟩ := hok
  exact ⟨n, hr⟩

theorem reportSafe_iff {found upward : Bool} :
    ReportSafe found upward body ↔ (if found then 8 else 3) ≤ body.length := by
  have hsafe : ReportSafe found upward body ↔
      ∃ r, rmRecvRadioMensRep found upward body = .ok r ∧ True := by simp [ReportSafe]
  rw [hsafe]
  unfold rmRecvRadioMensRep
  rw [exists_octet]
  cases found with
  | false =>
    rw [Bool.not_false, if_pos rfl]
    exact ⟨fun h => h.1, fun h => ⟨h, none, rfl, trivial⟩⟩
  | true =>
    simp only [Bool.not_true, Bool.false_eq_true, if_false, if_true, exists_octet]
    obtain ⟨n, hn⟩ := exists_cnt 39 (body.drop 3)
    rw [hn]
    have hrest : ∃ r, (if body.u8 3 ≠ 39 ∨ (!upward) = true then pure none
        else do
          let cnt ← (some (.ok n : M UInt8)).getD (.error .read)
          pure (some cnt) : M (Option UInt8)) = .ok r ∧ True := by
      split_ifs
      · exact ⟨none, rfl, trivial⟩
      · exact ⟨some n, rfl, trivial⟩
    exact ⟨fun h => by omega, fun h => ⟨by omega, by omega, by omega, by omega, by omega, by omega,
      hrest⟩⟩

end Frames

/-- **When requests and reports are taken safely**: a request whose sub-elements end where it does
and whose AP channel reports are of channels that can be recorded, and a report whose token or, if
it is awaited, whose element's fixed octets are in the frame. -/
theorem intake_safe_iff (malloc : Elem → Bool) (enCap : ℕ → Bool) (body : Bytes) :
    (RequestSafe malloc enCap body ↔ RequestFits malloc body) ∧
      ∀ found upward, ReportSafe found upward body ↔
        (if found then 8 else 3) ≤ body.length :=
  ⟨requestSafe_iff, fun _ _ => reportSafe_iff⟩

def emptyApChRep : Bytes :=
  [5, 0, 1, 0, 0, 38, 18, 1, 0, 5, 115, 255, 0, 0, 100, 0, 0, 255, 255, 255, 255, 255, 255, 51, 0,
    0]

theorem not_requestSafe : ¬ RequestSafe (fun _ => true) (fun _ => true) emptyApChRep := by
  have helems : elems [51, 0, 0] = [⟨51, 0, [0]⟩] := by simp [elems]
  have hloop : rmParseBcnReqSElem (fun _ => true) true [51, 0, 0] 2 { repDetail := 2 } =
      .error .copyLength := by
    unfold rmParseBcnReqSElem
    rw [helems]
    rfl
  rintro ⟨r, hr, -⟩
  change ((rmParseBcnReqSElem (fun _ => true) true [51, 0, 0] 2 { repDetail := 2 } >>= _) >>= _) =
    Except.ok r at hr
  rw [hloop] at hr
  cases hr

end Rtl88x2eu.Rm.Intake
