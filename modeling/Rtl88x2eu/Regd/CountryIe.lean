import Mathlib.Data.Fintype.Prod
import Mathlib.Data.List.FinRange
import Mathlib.Data.List.ProdSigma
import Rtl88x2eu.Lib.Transition

/-!
# The regulatory setting under country elements

`rtw_set_chplan_hdl` of `rtw_chplan.c` with what it does before it applies a request
(`rtw_chplan_rtk_priv_req_prehdl_country_ie`, `_domain_code` and `_country_ent`), and
`rtw_get_cisr_from_recv_country_ie`. Each link of each interface keeps a record of the country
element of its access point; the most conservative record is in effect, and without a record the
setting of the user or of the initialization is. There is no band of 6 GHz.

## Main definitions

* `RegDb`, `decideInitChplan`: the setting the driver starts with
* `rtwGetCisrFromRecvCountryIe`, `rtwSetChplanHdl`, `Law`, `KeepsPolicy`

## Main results

* `law_of_meets`: the law, in every run whose requests keep the policy
-/

namespace Rtl88x2eu.Regd

/-! ## Settings and records -/

/-- The two characters of a country code. -/
abbrev Alpha2 := UInt8 × UInt8

def worldwideAlpha2 : Alpha2 := (48, 48)

def unspecAlpha2 : Alpha2 := (57, 57)

def chplanNull : UInt8 := 0x0A

def chplanWorldwide : UInt8 := 0x7F

def chplanUnspecified : UInt8 := 0xFF

def isAlpha (c : UInt8) : Prop := (97 ≤ c ∧ c ≤ 122) ∨ (65 ≤ c ∧ c ≤ 90)

instance (c : UInt8) : Decidable (isAlpha c) := inferInstanceAs (Decidable (_ ∨ _))

def alphaToUpper (c : UInt8) : UInt8 := if 97 ≤ c ∧ c ≤ 122 then c - 32 else c

def Alpha2.upper (code : Alpha2) : Alpha2 := (alphaToUpper code.1, alphaToUpper code.2)

def edccaDef : UInt8 := 3

def txpwrLmtDef : UInt8 := 15

def chplanProtoEnAll : UInt8 := 0xFF

structure CountryChplan where
  alpha2 : Alpha2
  chplan : UInt8
  edccaMode2gOverride : UInt8
  edccaMode5gOverride : UInt8
  txpwrLmtOverride : UInt8
  protoEn : UInt8
  deriving DecidableEq

/-- The entry after `_rtw_memset`. -/
def CountryChplan.zero : CountryChplan := ⟨(0, 0), 0, 0, 0, 0, 0⟩

def worldWideChplan : CountryChplan :=
  ⟨worldwideAlpha2, chplanWorldwide, edccaDef, edccaDef, txpwrLmtDef, 3⟩

/-- The entry of a domain code alone, from the memory it is written to. -/
def unspecChplan (ent : CountryChplan) : CountryChplan :=
  { ent with
    alpha2 := unspecAlpha2
    edccaMode2gOverride := edccaDef
    edccaMode5gOverride := edccaDef
    txpwrLmtOverride := txpwrLmtDef
    protoEn := chplanProtoEnAll }

inductive BandType
  | on24G | on5G | on6G
  deriving DecidableEq

def rtwRegdToEdccaMode (regd : UInt8) : UInt8 :=
  if regd = 0 then edccaDef else if regd = 2 then 2 else if regd = 3 ∨ regd = 10 then 1 else 0

/-- **A regulatory database**: the entries of the countries, which domain codes are valid, the
default regulations of a domain code, and whether it has a channel of a band. The entry of a country
stands under its code, of two letters, and names a domain code. -/
structure RegDb where
  chplanFromAlpha2 : Alpha2 → Option CountryChplan
  isDomainCodeValid : UInt8 → Bool
  defaultRegd2g : UInt8 → UInt8
  defaultRegd5g : UInt8 → UInt8
  isBchValid : UInt8 → BandType → UInt8 → Bool
  alpha2_eq : ∀ {code ent}, chplanFromAlpha2 code = some ent → ent.alpha2 = code
  letters : ∀ {code ent}, chplanFromAlpha2 code = some ent → isAlpha code.1 ∧ isAlpha code.2
  chplan_ne : ∀ {code ent}, chplanFromAlpha2 code = some ent → ent.chplan ≠ chplanUnspecified
  unspecified_invalid : isDomainCodeValid chplanUnspecified = false

def rtwGetChplanFromCountry (db : RegDb) (code : Alpha2) : Option CountryChplan :=
  db.chplanFromAlpha2 code.upper

def rtwChplanIdsIsWorldWide (chplan : UInt8) : Prop :=
  ¬chplan = chplanNull ∧ (chplan = chplanWorldwide ∨ chplan = chplanNull)

instance (chplan : UInt8) : Decidable (rtwChplanIdsIsWorldWide chplan) :=
  inferInstanceAs (Decidable (_ ∧ _))

inductive CountryIeSlaveStatus
  | noCountry | unknown | opchNoexist | applicable
  deriving DecidableEq

def statusScore : CountryIeSlaveStatus → ℕ
  | .noCountry => 0
  | .unknown => 3
  | .opchNoexist => 2
  | .applicable => 1

structure CountryIeSlaveRecord where
  alpha2 : Alpha2
  band : BandType
  opch : UInt8
  status : CountryIeSlaveStatus
  chplan : CountryChplan
  deriving DecidableEq

def CountryIeSlaveRecord.unset : CountryIeSlaveRecord := ⟨(0, 0), .on24G, 0, .noCountry, .zero⟩

def rtwCountryChplanGetEdccaModes (db : RegDb) (ent : CountryChplan) : UInt8 × UInt8 :=
  (if ent.edccaMode2gOverride ≠ edccaDef then ent.edccaMode2gOverride
    else rtwRegdToEdccaMode (db.defaultRegd2g ent.chplan),
   if ent.edccaMode5gOverride ≠ edccaDef then ent.edccaMode5gOverride
    else rtwRegdToEdccaMode (db.defaultRegd5g ent.chplan))

/-- The record of a country element. -/
def rtwGetCisrFromRecvCountryIe (db : RegDb) (band : BandType) (opch : UInt8) (ie : Option Alpha2) :
    CountryIeSlaveRecord :=
  match ie with
  | none => ⟨(0, 0), band, opch, .noCountry, .zero⟩
  | some code =>
    if code = (88, 88) then ⟨code, band, opch, .noCountry, .zero⟩
    else
      match rtwGetChplanFromCountry db code with
      | none => ⟨code, band, opch, .unknown, worldWideChplan⟩
      | some ent =>
        if db.isBchValid ent.chplan band opch then ⟨code, band, opch, .applicable, ent⟩
        else
          let modes := rtwCountryChplanGetEdccaModes db ent
          ⟨code, band, opch, .opchNoexist,
            { worldWideChplan with
              edccaMode2gOverride := modes.1
              edccaMode5gOverride := modes.2 }⟩

/-! ## The state -/

inductive RegdInr
  | init | user | countryIe
  deriving DecidableEq

/-- What `rf_ctl_t` holds: the settings of the initialization and of the user, the setting in
effect with who set it, the records of `I` interfaces with `L` links each, and which of them is in
effect. -/
structure RfCtl (I L : ℕ) where
  initAlpha2 : Alpha2
  initChannelPlan : UInt8
  userAlpha2 : Alpha2
  userChannelPlan : UInt8
  regdInr : RegdInr
  regd : CountryChplan
  cisr : Fin I × Fin L → CountryIeSlaveRecord
  effectedCisr : Option (Fin I × Fin L)

/-- `struct SetChannelPlan_param`; no link stands for all links. -/
structure SetChannelPlanParam (L : ℕ) where
  inr : RegdInr
  hasCountry : Bool
  countryEnt : CountryChplan
  channelPlan : UInt8
  cisr : CountryIeSlaveRecord
  cisrAlinkId : Option (Fin L)

variable {I L : ℕ}

inductive CisrMatch
  | same | sameChplan | diff
  deriving DecidableEq

/-- Two records as country, band, channel and plan tell them apart. -/
def rtwCisrCompare (a b : CountryIeSlaveRecord) : CisrMatch :=
  if a = b then .same else if a.chplan = b.chplan then .sameChplan else .diff

/-- The record that an interface's request is about. -/
def Addressed (iface : Fin I) (link : Option (Fin L)) (p : Fin I × Fin L) : Prop :=
  p.1 = iface ∧ ∀ l, link = some l → p.2 = l

instance (iface : Fin I) (link : Option (Fin L)) (p : Fin I × Fin L) :
    Decidable (Addressed iface link p) :=
  inferInstanceAs (Decidable (_ ∧ _))

/-- The record of each addressed link becomes the new one. -/
def updateRecord (rf : RfCtl I L) (iface : Fin I) (link : Option (Fin L))
    (r : CountryIeSlaveRecord) : RfCtl I L :=
  { rf with cisr := fun p => if Addressed iface link p then r else rf.cisr p }

/-- Whether `r` is to replace the choice so far: the greater score, then the country of before. -/
def preferred (ori : Option CountryIeSlaveRecord) (new r : CountryIeSlaveRecord) : Bool :=
  statusScore new.status < statusScore r.status ||
    (statusScore r.status = statusScore new.status && ori.any fun o =>
      o.status = new.status && o.alpha2 ≠ new.alpha2 && o.alpha2 = r.alpha2)

/-- One step of the walk over the records: those without a country are passed over. -/
def selectStep (cisr : Fin I × Fin L → CountryIeSlaveRecord) (ori : Option CountryIeSlaveRecord)
    (new : Option (Fin I × Fin L)) (p : Fin I × Fin L) : Option (Fin I × Fin L) :=
  if (cisr p).status = .noCountry then new
  else
    match new with
    | none => some p
    | some n => if preferred ori (cisr n) (cisr p) then some p else some n

/-- The record that `rtw_chplan_rtk_priv_req_prehdl_country_ie` puts in effect. -/
def selectEffected (cisr : Fin I × Fin L → CountryIeSlaveRecord)
    (ori : Option CountryIeSlaveRecord) : Option (Fin I × Fin L) :=
  (List.finRange I ×ˢ List.finRange L).foldl (selectStep cisr ori) none

/-- The setting of the user if there is one, else that of the initialization. -/
def restored (rf : RfCtl I L) : RegdInr × Alpha2 × UInt8 :=
  if rf.userAlpha2.1 ≠ 0 then (.user, rf.userAlpha2, rf.userChannelPlan)
  else (.init, rf.initAlpha2, rf.initChannelPlan)

/-- The request that brings back the setting when no record is left. -/
def restoreParam (db : RegDb) (rf : RfCtl I L) (param : SetChannelPlanParam L) :
    SetChannelPlanParam L :=
  let r := restored rf
  let param := { param with inr := r.1, channelPlan := r.2.2 }
  if r.2.1 = unspecAlpha2 ∨ r.2.1 = worldwideAlpha2 then { param with hasCountry := false }
  else
    let ent := (rtwGetChplanFromCountry db r.2.1).getD worldWideChplan
    { param with countryEnt := ent, channelPlan := ent.chplan, hasCountry := true }

/-- The request becomes one for the record in effect. -/
def triggerParam (ent : CountryChplan) (param : SetChannelPlanParam L) : SetChannelPlanParam L :=
  { param with countryEnt := ent, channelPlan := ent.chplan, hasCountry := true }

/-- The records after the request, and the one in effect among them. -/
def reselect (rf : RfCtl I L) (iface : Fin I) (link : Option (Fin L))
    (r : CountryIeSlaveRecord) : RfCtl I L :=
  { updateRecord rf iface link r with
    effectedCisr := selectEffected (updateRecord rf iface link r).cisr
      (rf.effectedCisr.map rf.cisr) }

/-- What follows the choice: the setting is restored, or follows the record that was chosen unless
it is as the one before. -/
def prehdlSelected (db : RegDb) (rf : RfCtl I L) (ori : Option CountryIeSlaveRecord)
    (param : SetChannelPlanParam L) : RfCtl I L × SetChannelPlanParam L × Bool :=
  match rf.effectedCisr with
  | none => (rf, restoreParam db rf param, true)
  | some p =>
    if ori = some (rf.cisr p) then (rf, param, false)
    else (rf, triggerParam (rf.cisr p).chplan param, true)

/-- `rtw_chplan_rtk_priv_req_prehdl_country_ie`: the state, the request that is left, and whether it
takes effect. -/
def prehdlCountryIe (db : RegDb) (iface : Fin I) (rf : RfCtl I L)
    (param : SetChannelPlanParam L) : RfCtl I L × SetChannelPlanParam L × Bool :=
  if param.inr = .user ∧ rf.effectedCisr.isSome then (rf, param, false)
  else if param.inr ≠ .countryIe then (rf, param, true)
  else if ∀ p, Addressed iface param.cisrAlinkId p →
      rtwCisrCompare (rf.cisr p) param.cisr = .same then
    (rf, param, false)
  else
    -- the status, and with it the score, of a record may be another one all the same
    if ∀ p, Addressed iface param.cisrAlinkId p →
        rtwCisrCompare (rf.cisr p) param.cisr ≠ .diff then
      (updateRecord rf iface param.cisrAlinkId param.cisr, param, false)
    else
      prehdlSelected db (reselect rf iface param.cisrAlinkId param.cisr)
        (rf.effectedCisr.map rf.cisr) param

/-- A domain code that is not valid is refused; an unspecified one is the current one. -/
def prehdlDomainCode (db : RegDb) (rf : RfCtl I L) (param : SetChannelPlanParam L) :
    Option (SetChannelPlanParam L) :=
  if param.channelPlan ≠ chplanUnspecified ∧ ¬db.isDomainCodeValid param.channelPlan then none
  else if param.channelPlan = chplanUnspecified then
    some { param with channelPlan := rf.regd.chplan }
  else some param

/-- A request without a country gets the entry of its domain code. -/
def prehdlCountryEnt (param : SetChannelPlanParam L) : SetChannelPlanParam L :=
  if param.hasCountry then param
  else
    { param with
      countryEnt := if rtwChplanIdsIsWorldWide param.channelPlan then worldWideChplan
        else unspecChplan param.countryEnt
      hasCountry := true }

/-- What `rtw_set_chplan_hdl` does with a request that is checked. -/
def applyParam (rf : RfCtl I L) (param : SetChannelPlanParam L) (effected : Bool) : RfCtl I L :=
  let rf := if param.inr = .user then
      { rf with userAlpha2 := param.countryEnt.alpha2, userChannelPlan := param.channelPlan }
    else rf
  if effected then
    { rf with
      regdInr := param.inr
      regd := { param.countryEnt with chplan := param.channelPlan } }
  else rf

/-- `rtw_set_chplan_hdl`, on a request of an interface that succeeds. -/
def rtwSetChplanHdl (db : RegDb) (iface : Fin I) (rf : RfCtl I L)
    (param : SetChannelPlanParam L) : Option (RfCtl I L) :=
  let o := prehdlCountryIe db iface rf param
  (prehdlDomainCode db o.1 o.2.1).map fun param =>
    applyParam o.1 (prehdlCountryEnt param) o.2.2

/-! ## Requests -/

inductive UserReq
  | country (code : Alpha2)
  | plan (chplan : {p : UInt8 // p ≠ chplanUnspecified})

/-- `rtw_set_country_cmd` and `rtw_set_chplan_cmd`: the request, if there is one. -/
def UserReq.toParam (db : RegDb) (L : ℕ) : UserReq → Option (SetChannelPlanParam L)
  | .country code =>
    if code = worldwideAlpha2 then
      some ⟨.user, true, worldWideChplan, worldWideChplan.chplan, .unset, none⟩
    else if ¬isAlpha code.1 ∨ ¬isAlpha code.2 then none
    else (rtwGetChplanFromCountry db code).map fun ent =>
      ⟨.user, true, ent, ent.chplan, .unset, none⟩
  | .plan chplan => some ⟨.user, false, .zero, chplan, .unset, none⟩

def UserReq.setting (db : RegDb) : UserReq → Option (Alpha2 × UInt8)
  | .country code =>
    if code = worldwideAlpha2 then some (worldwideAlpha2, chplanWorldwide)
    else (rtwGetChplanFromCountry db code).map fun ent => (code.upper, ent.chplan)
  | .plan chplan =>
    some (if chplan = chplanWorldwide then worldwideAlpha2 else unspecAlpha2, chplan)

/-- A request of an interface: of the user, or `rtw_alink_apply_recv_country_ie_cmd` and
`rtw_apply_recv_country_ie_cmd` for one link and for all. -/
inductive Req (I L : ℕ)
  | user (iface : Fin I) (u : UserReq)
  | countryIe (iface : Fin I) (link : Option (Fin L)) (band : BandType) (opch : UInt8)
      (ie : Option Alpha2)

def countryIeParam (db : RegDb) (link : Option (Fin L)) (band : BandType) (opch : UInt8)
    (ie : Option Alpha2) : SetChannelPlanParam L :=
  ⟨.countryIe, false, .zero, chplanUnspecified, rtwGetCisrFromRecvCountryIe db band opch ie, link⟩

/-- A request that succeeds. -/
def reqStep (db : RegDb) (rf : RfCtl I L) : Req I L → Option (RfCtl I L)
  | .user iface u => (u.toParam db L).bind (rtwSetChplanHdl db iface rf)
  | .countryIe iface link band opch ie =>
    rtwSetChplanHdl db iface rf (countryIeParam db link band opch ie)

/-- The part of `rtw_rfctl_decide_init_chplan` for the country code and the domain code of the
hardware: the entry and the plan, if there are any, and whether they are forced. -/
def decideHwChplan (db : RegDb) (hwAlpha2 : Option Alpha2) (hwChplan : UInt8)
    (hwForceChplan : Bool) : Option CountryChplan × Option UInt8 × Bool :=
  let hwEnt := hwAlpha2.bind fun code =>
    if ¬isAlpha code.1 ∨ isAlpha code.2 then none else rtwGetChplanFromCountry db code
  match hwEnt with
  | some ent => (some ent, some ent.chplan, hwForceChplan)
  | none =>
    if db.isDomainCodeValid hwChplan then (none, some hwChplan, hwForceChplan)
    else (none, none, false)

def swCountryEnt (db : RegDb) (swAlpha2 : Alpha2) : Option CountryChplan :=
  if swAlpha2 = unspecAlpha2 then none
  else if swAlpha2 = worldwideAlpha2 then some worldWideChplan
  else rtwGetChplanFromCountry db swAlpha2

/-- `rtw_rfctl_decide_init_chplan`: the entry and the plan, if there are any. -/
def decideInitChplan (db : RegDb) (hwAlpha2 : Option Alpha2) (hwChplan : UInt8)
    (hwForceChplan : Bool) (swAlpha2 : Alpha2) (swChplan : UInt8) :
    Option CountryChplan × Option UInt8 :=
  let hw := decideHwChplan db hwAlpha2 hwChplan hwForceChplan
  if hw.2.2 then (hw.1, hw.2.1)
  else
    match swCountryEnt db swAlpha2 with
    | some ent => (some ent, some ent.chplan)
    | none => if db.isDomainCodeValid swChplan then (none, some swChplan) else (hw.1, hw.2.1)

/-- The state after the initialization. -/
def initRfCtl (o : Option CountryChplan × Option UInt8) : RfCtl I L :=
  let chplan := o.2.getD chplanWorldwide
  let ent := o.1.getD (if rtwChplanIdsIsWorldWide chplan then worldWideChplan
    else unspecChplan .zero)
  { initAlpha2 := ent.alpha2
    initChannelPlan := chplan
    userAlpha2 := (0, 0)
    userChannelPlan := chplanUnspecified
    regdInr := .init
    regd := { ent with chplan := chplan }
    cisr := fun _ => .unset
    effectedCisr := none }

def lastSetting (db : RegDb) (w : Option (Alpha2 × UInt8)) (reqs : List (Req I L)) :
    Option (Alpha2 × UInt8) :=
  reqs.foldl (fun w req =>
    match req with
    | .user _ u => (u.setting db).or w
    | .countryIe .. => w) w

/-- **What is in effect** after an initialization with `s₀` and requests of which the last one of a
user was for `w`: the most conservative record, and without a record the setting of the user or of
the initialization. -/
structure Law (s₀ : Alpha2 × UInt8) (w : Option (Alpha2 × UInt8)) (rf : RfCtl I L) : Prop where
  record : (∃ q, (rf.cisr q).status ≠ .noCountry) → ∃ p, rf.effectedCisr = some p ∧
    (rf.cisr p).status ≠ .noCountry ∧
    (∀ q, statusScore (rf.cisr q).status ≤ statusScore (rf.cisr p).status) ∧
    rf.regd = (rf.cisr p).chplan
  setting : (∀ q, (rf.cisr q).status = .noCountry) → rf.effectedCisr = none ∧
    (rf.regd.alpha2, rf.regd.chplan) = w.getD s₀

/-- **When a request keeps the policy.** Where the element of an access point changes the plan of
none of its records, no record outside of them is more conservative than the new one if the record
in effect is one of them, and the new one is no more conservative than the record in effect if it is
not. -/
def KeepsPolicy (db : RegDb) (rf : RfCtl I L) : Req I L → Prop
  | .user .. => True
  | .countryIe iface link band opch ie =>
    let r := rtwGetCisrFromRecvCountryIe db band opch ie
    (∀ p, Addressed iface link p → (rf.cisr p).chplan = r.chplan) →
      ∀ p, rf.effectedCisr = some p →
        (Addressed iface link p → ∀ q, ¬Addressed iface link q →
          statusScore (rf.cisr q).status ≤ statusScore r.status) ∧
        (¬Addressed iface link p → statusScore r.status ≤ statusScore (rf.cisr p).status)

instance (db : RegDb) (rf : RfCtl I L) : DecidablePred (KeepsPolicy db rf)
  | .user .. => isTrue trivial
  | .countryIe .. => by dsimp only [KeepsPolicy]; infer_instance

/-! ## Settings that are found again -/

variable {db : RegDb} {rf rf' : RfCtl I L} {param param' : SetChannelPlanParam L}
  {w : Option (Alpha2 × UInt8)} {s s₀ : Alpha2 × UInt8} {code : Alpha2} {ent : CountryChplan}
  {r : CountryIeSlaveRecord} {cisr : Fin I × Fin L → CountryIeSlaveRecord}
  {ori : Option CountryIeSlaveRecord} {iface : Fin I} {link : Option (Fin L)}

theorem alphaToUpper_idem (c : UInt8) : alphaToUpper (alphaToUpper c) = alphaToUpper c := by
  unfold alphaToUpper
  by_cases h : 97 ≤ c ∧ c ≤ 122
  · have hlt : ¬97 ≤ c - 32 := by
      have hle : c.toNat ≤ 122 := h.2
      have hge : 97 ≤ c.toNat := h.1
      have hsub : (c - 32).toNat = c.toNat - 32 :=
        UInt8.toNat_sub_of_le c 32 (show 32 ≤ c.toNat by omega)
      intro hle'
      have hle'' : 97 ≤ (c - 32).toNat := hle'
      omega
    rw [if_pos h, if_neg fun hc => hlt hc.1]
  · rw [if_neg h, if_neg h]

theorem upper_idem (code : Alpha2) : code.upper.upper = code.upper :=
  Prod.ext (alphaToUpper_idem _) (alphaToUpper_idem _)

theorem ne_of_isAlpha {c : UInt8} (h : isAlpha c) : c ≠ 0 ∧ c ≠ 48 ∧ c ≠ 57 := by
  refine ⟨?_, ?_, ?_⟩ <;> rintro rfl <;> exact absurd h (by decide)

/-- A setting that the restore finds again. -/
inductive Settled (db : RegDb) : Alpha2 × UInt8 → Prop
  | worldwide : Settled db (worldwideAlpha2, chplanWorldwide)
  | plan {p : UInt8} (hp : p ≠ chplanWorldwide) (hp' : p ≠ chplanUnspecified) :
      Settled db (unspecAlpha2, p)
  | country {code : Alpha2} {ent : CountryChplan}
      (h : rtwGetChplanFromCountry db code = some ent) : Settled db (code.upper, ent.chplan)

theorem isWorldWide_iff {p : UInt8} : rtwChplanIdsIsWorldWide p ↔ p = chplanWorldwide := by
  unfold rtwChplanIdsIsWorldWide
  constructor
  · rintro ⟨hne, rfl | rfl⟩
    · rfl
    · exact absurd rfl hne
  · rintro rfl
    exact ⟨by decide, .inl rfl⟩

theorem Settled.of_plan {p : UInt8} (hp : p ≠ chplanUnspecified) :
    Settled db (if p = chplanWorldwide then worldwideAlpha2 else unspecAlpha2, p) := by
  split
  next h =>
    subst h
    exact .worldwide
  next h => exact .plan h hp

theorem alpha2_fst_ne (h : Settled db s) : s.1.1 ≠ 0 := by
  cases h with
  | worldwide => decide
  | plan => exact show (57 : UInt8) ≠ 0 by decide
  | country h => exact (ne_of_isAlpha (db.letters h).1).1

theorem prehdlDomainCode_spec (h : prehdlDomainCode db rf param = some param')
    (hp : param.channelPlan ≠ chplanUnspecified) : param' = param := by
  unfold prehdlDomainCode at h
  split at h
  · exact (nomatch h)
  · exact (Option.some.inj h).symm

theorem prehdlCountryEnt_plan (h : param.hasCountry = false) :
    (prehdlCountryEnt param).countryEnt.alpha2 =
      if param.channelPlan = chplanWorldwide then worldwideAlpha2 else unspecAlpha2 := by
  unfold prehdlCountryEnt
  rw [if_neg (by rw [h]; decide)]
  by_cases hw : param.channelPlan = chplanWorldwide
  · simp only [if_pos hw, if_pos (isWorldWide_iff.mpr hw)]
    rfl
  · simp only [if_neg hw, if_neg fun h => hw (isWorldWide_iff.mp h)]
    rfl

theorem prehdlCountryEnt_inr : (prehdlCountryEnt param).inr = param.inr := by
  unfold prehdlCountryEnt
  split <;> rfl

theorem prehdlCountryEnt_channelPlan :
    (prehdlCountryEnt param).channelPlan = param.channelPlan := by
  unfold prehdlCountryEnt
  split <;> rfl

theorem prehdlCountryEnt_country (h : param.hasCountry = true) : prehdlCountryEnt param = param :=
  if_pos h

/-- **What a user sets is what was asked for.** -/
theorem user_param {u : UserReq} (hu : u.toParam db L = some param)
    (hcheck : prehdlDomainCode db rf param = some param') :
    ∃ s, u.setting db = some s ∧ Settled db s ∧ param'.inr = .user ∧
      ((prehdlCountryEnt param').countryEnt.alpha2, param'.channelPlan) = s := by
  cases u with
  | country code =>
    simp only [UserReq.toParam] at hu
    by_cases hw : code = worldwideAlpha2
    · rw [if_pos hw] at hu
      obtain rfl := Option.some.inj hu
      obtain rfl := prehdlDomainCode_spec hcheck (show chplanWorldwide ≠ _ by decide)
      exact ⟨_, if_pos hw, .worldwide, rfl, rfl⟩
    · rw [if_neg hw] at hu
      split at hu
      · exact (nomatch hu)
      · obtain ⟨ent, hent, rfl⟩ := Option.map_eq_some_iff.mp hu
        obtain rfl := prehdlDomainCode_spec hcheck (db.chplan_ne hent)
        refine ⟨(code.upper, ent.chplan), ?_, .country hent, rfl, ?_⟩
        · simp only [UserReq.setting, if_neg hw, hent, Option.map_some]
        · rw [prehdlCountryEnt_country rfl, ← db.alpha2_eq hent]
  | plan p =>
    obtain rfl := Option.some.inj hu
    obtain rfl := prehdlDomainCode_spec hcheck p.2
    exact ⟨_, rfl, Settled.of_plan p.2, rfl, by rw [prehdlCountryEnt_plan rfl]⟩

/-- **What is restored is what was set.** -/
theorem prehdl_restore (h : Settled db (restored rf).2)
    (hcheck : prehdlDomainCode db rf (restoreParam db rf param) = some param') :
    param'.inr = (restored rf).1 ∧
      ((prehdlCountryEnt param').countryEnt.alpha2, param'.channelPlan) = (restored rf).2 := by
  unfold restoreParam at hcheck
  generalize restored rf = o at h hcheck
  obtain ⟨inr, s⟩ := o
  cases h with
  | worldwide =>
    obtain rfl := prehdlDomainCode_spec hcheck (show chplanWorldwide ≠ _ by decide)
    exact ⟨rfl, rfl⟩
  | @plan p hp hp' =>
    obtain rfl := prehdlDomainCode_spec hcheck hp'
    exact ⟨rfl, Prod.ext ((prehdlCountryEnt_plan rfl).trans (if_neg hp)) rfl⟩
  | @country code ent h =>
    have hne := ne_of_isAlpha (db.letters h).1
    -- the code of a country is of letters, so it is not taken for one of the two marks
    have hspecial : ¬(code.upper = unspecAlpha2 ∨ code.upper = worldwideAlpha2) := by
      rintro (heq | heq)
      · exact hne.2.2 (congrArg Prod.fst heq)
      · exact hne.2.1 (congrArg Prod.fst heq)
    have hupper : rtwGetChplanFromCountry db code.upper = some ent := by
      rw [rtwGetChplanFromCountry, upper_idem]
      exact h
    simp only [if_neg hspecial, hupper, Option.getD_some] at hcheck
    obtain rfl := prehdlDomainCode_spec hcheck (db.chplan_ne h)
    refine ⟨rfl, ?_⟩
    rw [prehdlCountryEnt_country rfl, ← db.alpha2_eq h]

structure Best (cisr : Fin I × Fin L → CountryIeSlaveRecord) (ps : List (Fin I × Fin L))
    (new : Option (Fin I × Fin L)) : Prop where
  status : ∀ n, new = some n → (cisr n).status ≠ .noCountry
  le : ∀ p ∈ ps, (cisr p).status ≠ .noCountry →
    ∃ n, new = some n ∧ statusScore (cisr p).status ≤ statusScore (cisr n).status

theorem preferred_le {new : CountryIeSlaveRecord} (h : preferred ori new r = true) :
    statusScore new.status ≤ statusScore r.status := by
  unfold preferred at h
  rcases Bool.or_eq_true_iff.mp h with h | h
  · exact (of_decide_eq_true h).le
  · exact (of_decide_eq_true (Bool.and_eq_true_iff.mp h).1).ge

theorem le_of_not_preferred {new : CountryIeSlaveRecord} (h : ¬preferred ori new r = true) :
    statusScore r.status ≤ statusScore new.status := by
  by_contra hlt
  exact h (Bool.or_eq_true_iff.mpr (.inl (decide_eq_true (Nat.lt_of_not_le hlt))))

theorem Best.step {ps : List (Fin I × Fin L)} {new : Option (Fin I × Fin L)}
    (h : Best cisr ps new) (p : Fin I × Fin L) :
    Best cisr (ps ++ [p]) (selectStep cisr ori new p) := by
  unfold selectStep
  split
  next hno =>
    refine ⟨h.status, fun q hq hstatus => ?_⟩
    rcases List.mem_append.mp hq with hq | hq
    · exact h.le q hq hstatus
    · rw [List.mem_singleton.mp hq] at hstatus
      exact absurd hno hstatus
  next hno =>
    cases new with
    | none =>
      refine ⟨fun n hn => ?_, fun q hq hstatus => ?_⟩
      · obtain rfl := Option.some.inj hn
        exact hno
      · rcases List.mem_append.mp hq with hq | hq
        · obtain ⟨n, hn, -⟩ := h.le q hq hstatus
          exact (nomatch hn)
        · rw [List.mem_singleton.mp hq]
          exact ⟨p, rfl, le_rfl⟩
    | some m =>
      have hseen : ∀ q ∈ ps, (cisr q).status ≠ .noCountry →
          statusScore (cisr q).status ≤ statusScore (cisr m).status := by
        intro q hq hstatus
        obtain ⟨n, hn, hle⟩ := h.le q hq hstatus
        obtain rfl := Option.some.inj hn
        exact hle
      by_cases hpref : preferred ori (cisr m) (cisr p) = true
      · simp only [if_pos hpref]
        refine ⟨fun n hn => ?_, fun q hq hstatus => ?_⟩
        · obtain rfl := Option.some.inj hn
          exact hno
        · rcases List.mem_append.mp hq with hq | hq
          · exact ⟨p, rfl, (hseen q hq hstatus).trans (preferred_le hpref)⟩
          · rw [List.mem_singleton.mp hq]
            exact ⟨p, rfl, le_rfl⟩
      · simp only [if_neg hpref]
        refine ⟨h.status, fun q hq hstatus => ?_⟩
        rcases List.mem_append.mp hq with hq | hq
        · exact ⟨m, rfl, hseen q hq hstatus⟩
        · rw [List.mem_singleton.mp hq]
          exact ⟨m, rfl, le_of_not_preferred hpref⟩

theorem Best.foldl {ps qs : List (Fin I × Fin L)} {new : Option (Fin I × Fin L)}
    (h : Best cisr ps new) : Best cisr (ps ++ qs) (qs.foldl (selectStep cisr ori) new) := by
  induction qs generalizing ps new with
  | nil => rwa [List.append_nil]
  | cons q qs ih =>
    rw [List.foldl_cons, ← List.singleton_append, ← List.append_assoc]
    exact ih (h.step q)

structure Selected (cisr : Fin I × Fin L → CountryIeSlaveRecord)
    (eff : Option (Fin I × Fin L)) : Prop where
  none : eff = none → ∀ q, (cisr q).status = .noCountry
  some : ∀ p, eff = some p → (cisr p).status ≠ .noCountry ∧
    ∀ q, statusScore (cisr q).status ≤ statusScore (cisr p).status

theorem selected_selectEffected : Selected cisr (selectEffected cisr ori) := by
  have hbest : Best cisr [] none := ⟨fun _ hn => (nomatch hn), fun _ hp => (nomatch hp)⟩
  have hall : Best cisr ([] ++ List.finRange I ×ˢ List.finRange L) (selectEffected cisr ori) :=
    hbest.foldl
  have hmem : ∀ q : Fin I × Fin L, q ∈ [] ++ List.finRange I ×ˢ List.finRange L := fun q =>
    List.mem_product.mpr ⟨List.mem_finRange _, List.mem_finRange _⟩
  constructor
  · intro hnone q
    by_contra hstatus
    obtain ⟨n, hn, -⟩ := hall.le q (hmem q) hstatus
    exact (nomatch hnone.symm.trans hn)
  · intro p hp
    refine ⟨hall.status p hp, fun q => ?_⟩
    by_cases hstatus : (cisr q).status = .noCountry
    · rw [hstatus]
      exact Nat.zero_le _
    · obtain ⟨n, hn, hle⟩ := hall.le q (hmem q) hstatus
      obtain rfl := Option.some.inj (hp.symm.trans hn)
      exact hle

/-! ## The invariant -/

structure CountryIeSlaveRecord.WellFormed (r : CountryIeSlaveRecord) : Prop where
  zero : r.status = .noCountry → r.chplan = .zero
  plan : r.status ≠ .noCountry → r.chplan ≠ .zero ∧ r.chplan.chplan ≠ chplanUnspecified

theorem wellFormed_unset : CountryIeSlaveRecord.unset.WellFormed :=
  ⟨fun _ => rfl, fun h => absurd rfl h⟩

theorem ne_zero_of_alpha2 (h : ent.alpha2.1 ≠ 0) : ent ≠ .zero :=
  fun heq => h (congrArg (fun e => e.alpha2.1) heq)

theorem wellFormed_cisr (band : BandType) (opch : UInt8) (ie : Option Alpha2) :
    (rtwGetCisrFromRecvCountryIe db band opch ie).WellFormed := by
  unfold rtwGetCisrFromRecvCountryIe
  cases ie with
  | none => exact ⟨fun _ => rfl, fun h => absurd rfl h⟩
  | some code =>
    dsimp only
    split
    · exact ⟨fun _ => rfl, fun h => absurd rfl h⟩
    · split
      · refine ⟨fun h => (nomatch h), fun _ => ⟨ne_zero_of_alpha2 ?_, ?_⟩⟩
        · exact show (48 : UInt8) ≠ 0 by decide
        · exact show chplanWorldwide ≠ chplanUnspecified by decide
      next ent hent =>
        split
        · refine ⟨fun h => (nomatch h), fun _ => ⟨ne_zero_of_alpha2 ?_, db.chplan_ne hent⟩⟩
          rw [db.alpha2_eq hent]
          exact (ne_of_isAlpha (db.letters hent).1).1
        · refine ⟨fun h => (nomatch h), fun _ => ⟨ne_zero_of_alpha2 ?_, ?_⟩⟩
          · exact show (48 : UInt8) ≠ 0 by decide
          · exact show chplanWorldwide ≠ chplanUnspecified by decide

theorem CountryIeSlaveRecord.WellFormed.status_iff {r' : CountryIeSlaveRecord}
    (h : r.WellFormed) (h' : r'.WellFormed) (heq : r.chplan = r'.chplan) :
    r.status = .noCountry ↔ r'.status = .noCountry := by
  constructor
  · intro hr
    by_contra hr'
    exact (h'.plan hr').1 (heq.symm.trans (h.zero hr))
  · intro hr'
    by_contra hr
    exact (h.plan hr).1 (heq.trans (h'.zero hr'))

/-- **The invariant**, after an initialization with `s₀` and requests of which the last one of a
user was for `w`. -/
structure Inv (db : RegDb) (s₀ : Alpha2 × UInt8) (w : Option (Alpha2 × UInt8)) (rf : RfCtl I L) :
    Prop where
  base : (rf.initAlpha2, rf.initChannelPlan) = s₀
  init : Settled db s₀
  unset : w = none → rf.userAlpha2.1 = 0
  set : ∀ s, w = some s → Settled db s ∧ (rf.userAlpha2, rf.userChannelPlan) = s
  record : ∀ p, (rf.cisr p).WellFormed
  selected : Selected rf.cisr rf.effectedCisr
  setting : rf.effectedCisr = none → (rf.regd.alpha2, rf.regd.chplan) = w.getD s₀
  applied : ∀ p, rf.effectedCisr = some p → rf.regd = (rf.cisr p).chplan

theorem Inv.law (h : Inv db s₀ w rf) : Law s₀ w rf := by
  constructor
  · rintro ⟨q, hq⟩
    cases heff : rf.effectedCisr with
    | none => exact absurd (h.selected.none heff q) hq
    | some p =>
      have hsel := h.selected.some p heff
      exact ⟨p, rfl, hsel.1, hsel.2, h.applied p heff⟩
  · intro hno
    have heff : rf.effectedCisr = none := by
      cases heff : rf.effectedCisr with
      | none => rfl
      | some p => exact absurd (hno p) (h.selected.some p heff).1
    exact ⟨heff, h.setting heff⟩

theorem Inv.restored_cases (h : Inv db s₀ w rf) :
    (w = none ∧ restored rf = (.init, s₀)) ∨ ∃ s, w = some s ∧ restored rf = (.user, s) := by
  unfold restored
  cases hw : w with
  | none =>
    have hunset := h.unset hw
    refine .inl ⟨rfl, ?_⟩
    rw [if_neg fun hne => hne hunset, ← h.base]
  | some s =>
    obtain ⟨hsettled, heq⟩ := h.set s hw
    refine .inr ⟨s, rfl, ?_⟩
    have hne : rf.userAlpha2.1 ≠ 0 := by
      have hfst := alpha2_fst_ne hsettled
      rwa [← heq] at hfst
    rw [if_pos hne, ← heq]

theorem applyParam_user (h : param.inr = .user) (effected : Bool) :
    applyParam rf param effected =
      { rf with
        userAlpha2 := param.countryEnt.alpha2
        userChannelPlan := param.channelPlan
        regdInr := if effected then .user else rf.regdInr
        regd := if effected then { param.countryEnt with chplan := param.channelPlan }
          else rf.regd } := by
  cases effected <;> simp [applyParam, h]

theorem user_cases {u : UserReq} (h : reqStep db rf (.user iface u) = some rf') :
    ∃ param, u.setting db = some (param.countryEnt.alpha2, param.channelPlan) ∧
      Settled db (param.countryEnt.alpha2, param.channelPlan) ∧ param.inr = .user ∧
      rf' = applyParam rf (param : SetChannelPlanParam L) rf.effectedCisr.isNone := by
  obtain ⟨param, hu, h⟩ := Option.bind_eq_some_iff.mp h
  have hinr : param.inr = .user := by
    cases u with
    | country code =>
      simp only [UserReq.toParam] at hu
      split at hu
      · obtain rfl := Option.some.inj hu
        rfl
      · split at hu
        · exact (nomatch hu)
        · obtain ⟨ent, -, rfl⟩ := Option.map_eq_some_iff.mp hu
          rfl
    | plan p =>
      obtain rfl := Option.some.inj hu
      rfl
  have hpre : prehdlCountryIe db iface rf param = (rf, param, rf.effectedCisr.isNone) := by
    unfold prehdlCountryIe
    rw [hinr]
    cases heff : rf.effectedCisr with
    | none => rfl
    | some p => rfl
  rw [rtwSetChplanHdl, hpre] at h
  obtain ⟨param', hcheck, rfl⟩ := Option.map_eq_some_iff.mp h
  obtain ⟨s, hs, hsettled, hinr', heq⟩ := user_param hu hcheck
  refine ⟨prehdlCountryEnt param', ?_, ?_, prehdlCountryEnt_inr.trans hinr', rfl⟩
  · rw [hs, ← heq, prehdlCountryEnt_channelPlan]
  · rw [prehdlCountryEnt_channelPlan, heq]
    exact hsettled

theorem Inv.user {u : UserReq} (h : Inv db s₀ w rf)
    (hstep : reqStep db rf (.user iface u) = some rf') : Inv db s₀ ((u.setting db).or w) rf' := by
  obtain ⟨param, hs, hsettled, hinr, rfl⟩ := user_cases hstep
  rw [hs, applyParam_user hinr]
  refine ⟨h.base, h.init, fun hw => (nomatch hw), fun s hw => ?_, h.record, h.selected,
    fun heff => ?_, fun p heff => ?_⟩
  · obtain rfl := Option.some.inj hw
    exact ⟨hsettled, rfl⟩
  · have hnone : rf.effectedCisr = none := heff
    simp [hnone]
  · have hsome : rf.effectedCisr = some p := heff
    have happlied := h.applied p hsome
    simpa [hsome] using happlied

/-! ## Requests for country elements -/

theorem prehdlDomainCode_inr (h : prehdlDomainCode db rf param = some param') :
    param'.inr = param.inr := by
  unfold prehdlDomainCode at h
  split at h
  · exact (nomatch h)
  · split at h <;> (obtain rfl := Option.some.inj h; rfl)

theorem exit_spec {rf₁ : RfCtl I L} (hinr : param.inr = .countryIe)
    (h : (prehdlDomainCode db rf param).map
      (fun param => applyParam rf₁ (prehdlCountryEnt param) false) = some rf') : rf' = rf₁ := by
  obtain ⟨param', hcheck, rfl⟩ := Option.map_eq_some_iff.mp h
  have hinr' : (prehdlCountryEnt param').inr ≠ .user := by
    rw [prehdlCountryEnt_inr, prehdlDomainCode_inr hcheck, hinr]
    decide
  simp [applyParam, hinr']

theorem rtwCisrCompare_ne_diff {a b : CountryIeSlaveRecord} :
    rtwCisrCompare a b ≠ .diff ↔ a.chplan = b.chplan := by
  unfold rtwCisrCompare
  split
  next h => exact iff_of_true (fun hc => (nomatch hc)) (congrArg _ h)
  · split
    next h => exact iff_of_true (fun hc => (nomatch hc)) h
    next h => exact iff_of_false (fun hc => hc rfl) h

/-- **What a request for a country element does**: nothing, the records alone, or a choice anew, of
which the setting follows unless the chosen record is as the one before. -/
theorem countryIe_cases {band : BandType} {opch : UInt8} {ie : Option Alpha2}
    (h : reqStep db rf (.countryIe iface link band opch ie) = some rf')
    (hr : rtwGetCisrFromRecvCountryIe db band opch ie = r) :
    rf' = rf ∨
      ((∀ p, Addressed iface link p → (rf.cisr p).chplan = r.chplan) ∧
        rf' = updateRecord rf iface link r) ∨
      (∃ p, (reselect rf iface link r).effectedCisr = some p ∧
        rf.effectedCisr.map rf.cisr = some ((reselect rf iface link r).cisr p) ∧
        rf' = reselect rf iface link r) ∨
      ∃ param param' : SetChannelPlanParam L,
        prehdlDomainCode db (reselect rf iface link r) param = some param' ∧
        rf' = applyParam (reselect rf iface link r) (prehdlCountryEnt param') true ∧
        (((reselect rf iface link r).effectedCisr = none ∧
            ∃ param₀, param = restoreParam db (reselect rf iface link r) param₀) ∨
          ∃ p, (reselect rf iface link r).effectedCisr = some p ∧
            ∃ param₀ : SetChannelPlanParam L, param₀.inr = .countryIe ∧
              param = triggerParam ((reselect rf iface link r).cisr p).chplan param₀) := by
  have hinr : (countryIeParam db link band opch ie).inr = .countryIe := rfl
  have hcisr : (countryIeParam db link band opch ie).cisr = r := hr
  have hlink : (countryIeParam db link band opch ie).cisrAlinkId = link := rfl
  simp only [reqStep] at h
  generalize countryIeParam db link band opch ie = param at h hinr hcisr hlink
  subst hcisr hlink
  simp only [rtwSetChplanHdl, prehdlCountryIe] at h
  rw [if_neg (by rw [hinr]; exact fun hc => (nomatch hc.1)),
    if_neg (by rw [hinr]; exact fun hc => hc rfl)] at h
  -- two exits stand before the selection
  by_cases hsame : ∀ p, Addressed iface param.cisrAlinkId p →
      rtwCisrCompare (rf.cisr p) param.cisr = .same
  · rw [if_pos hsame] at h
    exact .inl (exit_spec hinr h)
  rw [if_neg hsame] at h
  by_cases hplan : ∀ p, Addressed iface param.cisrAlinkId p →
      rtwCisrCompare (rf.cisr p) param.cisr ≠ .diff
  · rw [if_pos hplan] at h
    refine .inr (.inl ⟨fun p hp => ?_, exit_spec hinr h⟩)
    exact rtwCisrCompare_ne_diff.mp (hplan p hp)
  rw [if_neg hplan] at h
  rw [prehdlSelected] at h
  cases heff : (reselect rf iface param.cisrAlinkId param.cisr).effectedCisr with
  | none =>
    rw [heff] at h
    obtain ⟨param', hcheck, rfl⟩ := Option.map_eq_some_iff.mp h
    exact .inr (.inr (.inr ⟨_, param', hcheck, rfl, .inl ⟨rfl, param, rfl⟩⟩))
  | some p =>
    rw [heff] at h
    dsimp only at h
    by_cases hori : rf.effectedCisr.map rf.cisr =
        some ((reselect rf iface param.cisrAlinkId param.cisr).cisr p)
    · rw [if_pos hori] at h
      exact .inr (.inr (.inl ⟨p, rfl, hori, exit_spec hinr h⟩))
    · rw [if_neg hori] at h
      obtain ⟨param', hcheck, rfl⟩ := Option.map_eq_some_iff.mp h
      exact .inr (.inr (.inr ⟨_, param', hcheck, rfl, .inr ⟨p, rfl, param, hinr, rfl⟩⟩))

theorem updateRecord_addressed {p : Fin I × Fin L} (h : Addressed iface link p) :
    (updateRecord rf iface link r).cisr p = r :=
  if_pos h

theorem updateRecord_other {p : Fin I × Fin L} (h : ¬Addressed iface link p) :
    (updateRecord rf iface link r).cisr p = rf.cisr p :=
  if_neg h

theorem wellFormed_updateRecord (h : ∀ p, (rf.cisr p).WellFormed) (hr : r.WellFormed)
    (p : Fin I × Fin L) : ((updateRecord rf iface link r).cisr p).WellFormed := by
  by_cases hp : Addressed iface link p
  · rwa [updateRecord_addressed hp]
  · rw [updateRecord_other hp]
    exact h p

theorem chplan_updateRecord (h : ∀ p, Addressed iface link p → (rf.cisr p).chplan = r.chplan)
    (p : Fin I × Fin L) :
    ((updateRecord rf iface link r).cisr p).chplan = (rf.cisr p).chplan := by
  by_cases hp : Addressed iface link p
  · rw [updateRecord_addressed hp, h p hp]
  · rw [updateRecord_other hp]

/-- **Records overwritten with the same entry**: the one in effect stays the most conservative if
the policy is kept. -/
theorem Inv.selected_updateRecord (h : Inv db s₀ w rf) (hr : r.WellFormed)
    (hplan : ∀ p, Addressed iface link p → (rf.cisr p).chplan = r.chplan)
    (hkeeps : ∀ p, rf.effectedCisr = some p →
      (Addressed iface link p → ∀ q, ¬Addressed iface link q →
        statusScore (rf.cisr q).status ≤ statusScore r.status) ∧
      (¬Addressed iface link p → statusScore r.status ≤ statusScore (rf.cisr p).status)) :
    Selected (updateRecord rf iface link r).cisr rf.effectedCisr := by
  have hstatus : ∀ p, ((updateRecord rf iface link r).cisr p).status = .noCountry ↔
      (rf.cisr p).status = .noCountry := fun p =>
    (wellFormed_updateRecord h.record hr p).status_iff (h.record p) (chplan_updateRecord hplan p)
  constructor
  · intro hnone q
    exact (hstatus q).mpr (h.selected.none hnone q)
  · intro p hp
    obtain ⟨hin, hout⟩ := hkeeps p hp
    obtain ⟨hno, hbest⟩ := h.selected.some p hp
    refine ⟨fun hc => hno ((hstatus p).mp hc), fun q => ?_⟩
    -- the record in effect and the one it is compared with may each be overwritten or not
    by_cases hpa : Addressed iface link p
    · rw [updateRecord_addressed hpa]
      by_cases hqa : Addressed iface link q
      · rw [updateRecord_addressed hqa]
      · rw [updateRecord_other hqa]
        exact hin hpa q hqa
    · rw [updateRecord_other hpa]
      by_cases hqa : Addressed iface link q
      · rw [updateRecord_addressed hqa]
        exact hout hpa
      · rw [updateRecord_other hqa]
        exact hbest q

theorem selected_reselect :
    Selected (reselect rf iface link r).cisr (reselect rf iface link r).effectedCisr :=
  selected_selectEffected

/-- The setting is that of the record that was chosen. -/
theorem apply_trigger (hent : ent.chplan ≠ chplanUnspecified) (hinr : param.inr = .countryIe)
    (hcheck : prehdlDomainCode db rf (triggerParam ent param) = some param') :
    applyParam rf (prehdlCountryEnt param') true =
      { rf with regdInr := .countryIe, regd := ent } := by
  obtain rfl := prehdlDomainCode_spec hcheck hent
  rw [prehdlCountryEnt_country rfl]
  have hne : (triggerParam ent param).inr ≠ .user := by
    rw [triggerParam, hinr]
    decide
  simp only [applyParam, if_neg hne, if_true]
  simp only [triggerParam, hinr]

/-- **The setting is restored.** -/
theorem Inv.restore {rf₀ : RfCtl I L} (h : Inv db s₀ w rf)
    (hinit : (rf₀.initAlpha2, rf₀.initChannelPlan) = (rf.initAlpha2, rf.initChannelPlan))
    (huser : (rf₀.userAlpha2, rf₀.userChannelPlan) = (rf.userAlpha2, rf.userChannelPlan))
    (hrecord : ∀ p, (rf₀.cisr p).WellFormed) (hsel : Selected rf₀.cisr none)
    (heff : rf₀.effectedCisr = none)
    (hcheck : prehdlDomainCode db rf₀ (restoreParam db rf₀ param) = some param') :
    Inv db s₀ w (applyParam rf₀ (prehdlCountryEnt param') true) := by
  have hrestored : restored rf₀ = restored rf := by
    simp only [Prod.mk.injEq] at hinit huser
    simp only [restored, hinit.1, hinit.2, huser.1, huser.2]
  have hspec : ∀ {inr : RegdInr} {s : Alpha2 × UInt8}, restored rf = (inr, s) → Settled db s →
      param'.inr = inr ∧
        ((prehdlCountryEnt param').countryEnt.alpha2, param'.channelPlan) = s := by
    intro inr s heq hs
    rw [← hrestored] at heq
    have hset : Settled db (restored rf₀).2 := by rwa [heq]
    have hback := prehdl_restore hset hcheck
    rwa [heq] at hback
  rcases h.restored_cases with ⟨hw, heq⟩ | ⟨s, hw, heq⟩
  · obtain ⟨hinr, hs⟩ := hspec heq h.init
    have hne : (prehdlCountryEnt param').inr ≠ .user := by
      rw [prehdlCountryEnt_inr, hinr]
      decide
    simp only [applyParam, if_neg hne, if_true]
    refine ⟨hinit.trans h.base, h.init, fun _ => ?_, fun s hs => ?_, hrecord, heff ▸ hsel,
      fun _ => ?_,
      fun p hp => ?_⟩
    · rw [(Prod.mk.injEq ..).mp huser |>.1]
      exact h.unset hw
    · exact (nomatch hw.symm.trans hs)
    · rw [hw, Option.getD_none]
      rw [prehdlCountryEnt_channelPlan]
      exact hs
    · exact (nomatch heff.symm.trans hp)
  · obtain ⟨hsettled, -⟩ := h.set s hw
    obtain ⟨hinr, hs⟩ := hspec heq hsettled
    -- the restored request counts as one of the user, and is recorded again
    rw [applyParam_user (prehdlCountryEnt_inr.trans hinr)]
    refine ⟨hinit.trans h.base, h.init, fun hnone => ?_, fun s' hs' => ?_, hrecord, heff ▸ hsel,
      fun _ => ?_, fun p hp => ?_⟩
    · exact (nomatch hw.symm.trans hnone)
    · obtain rfl := Option.some.inj (hw.symm.trans hs')
      refine ⟨hsettled, ?_⟩
      rw [prehdlCountryEnt_channelPlan]
      exact hs
    · rw [hw, Option.getD_some]
      rw [prehdlCountryEnt_channelPlan]
      exact hs
    · exact (nomatch heff.symm.trans hp)

theorem Inv.countryIe {band : BandType} {opch : UInt8} {ie : Option Alpha2} (h : Inv db s₀ w rf)
    (hkeeps : KeepsPolicy db rf (.countryIe iface link band opch ie))
    (hstep : reqStep db rf (.countryIe iface link band opch ie) = some rf') :
    Inv db s₀ w rf' := by
  have hr := @wellFormed_cisr db band opch ie
  have hrecord : ∀ p, ((updateRecord rf iface link
      (rtwGetCisrFromRecvCountryIe db band opch ie)).cisr p).WellFormed :=
    wellFormed_updateRecord h.record hr
  rcases countryIe_cases hstep rfl with
    rfl | ⟨hplan, rfl⟩ | ⟨p, heff, hori, rfl⟩ | ⟨param, param', hcheck, rfl, hcase⟩
  · exact h
  · refine ⟨h.base, h.init, h.unset, h.set, hrecord,
      h.selected_updateRecord hr hplan (hkeeps hplan), h.setting, fun p hp => ?_⟩
    rw [chplan_updateRecord hplan]
    exact h.applied p hp
  · refine ⟨h.base, h.init, h.unset, h.set, hrecord, selected_reselect, fun hnone => ?_,
      fun q hq => ?_⟩
    · exact (nomatch hnone.symm.trans heff)
    · obtain ⟨o, ho, heq⟩ := Option.map_eq_some_iff.mp hori
      obtain rfl := Option.some.inj (heff.symm.trans hq)
      rw [← heq]
      exact h.applied o ho
  · rcases hcase with ⟨heff, param₀, rfl⟩ | ⟨p, heff, param₀, hinr, rfl⟩
    · exact h.restore rfl rfl hrecord (heff ▸ selected_reselect) heff hcheck
    · have hsel :=
        @selected_reselect I L rf (rtwGetCisrFromRecvCountryIe db band opch ie) iface link
      have hplan := (hrecord p).plan (hsel.some p heff).1
      rw [apply_trigger hplan.2 hinr hcheck]
      refine ⟨h.base, h.init, h.unset, h.set, hrecord, hsel, fun hnone => ?_, fun q hq => ?_⟩
      · exact (nomatch hnone.symm.trans heff)
      · obtain rfl := Option.some.inj (heff.symm.trans hq)
        rfl

/-- An entry and a plan that belong together. -/
structure InitOk (db : RegDb) (o : Option CountryChplan × Option UInt8) : Prop where
  country : ∀ ent, o.1 = some ent → o.2 = some ent.chplan ∧ Settled db (ent.alpha2, ent.chplan)
  plan : o.1 = none → ∀ p, o.2 = some p → p ≠ chplanUnspecified

theorem initOk_country (h : Settled db (ent.alpha2, ent.chplan)) :
    InitOk db (some ent, some ent.chplan) :=
  ⟨fun _ heq => Option.some.inj heq ▸ ⟨rfl, h⟩, fun h => (nomatch h)⟩

theorem initOk_plan {p : UInt8} (h : db.isDomainCodeValid p = true) :
    InitOk db (none, some p) := by
  refine ⟨fun _ h => (nomatch h), fun _ q hq => ?_⟩
  obtain rfl := Option.some.inj hq
  rintro rfl
  rw [db.unspecified_invalid] at h
  exact (nomatch h)

theorem Settled.of_country (h : rtwGetChplanFromCountry db code = some ent) :
    Settled db (ent.alpha2, ent.chplan) := by
  rw [db.alpha2_eq h]
  exact .country h

theorem initOk_decideHwChplan (hwAlpha2 : Option Alpha2) (hwChplan : UInt8) (force : Bool) :
    InitOk db ((decideHwChplan db hwAlpha2 hwChplan force).1,
      (decideHwChplan db hwAlpha2 hwChplan force).2.1) := by
  unfold decideHwChplan
  dsimp only
  split
  next ent hent =>
    obtain ⟨code, -, hcode⟩ := Option.bind_eq_some_iff.mp hent
    split at hcode
    · exact (nomatch hcode)
    · exact initOk_country (.of_country hcode)
  · split
    next h => exact initOk_plan h
    · exact ⟨fun _ h => (nomatch h), fun _ _ h => (nomatch h)⟩

theorem settled_swCountryEnt {swAlpha2 : Alpha2} (h : swCountryEnt db swAlpha2 = some ent) :
    Settled db (ent.alpha2, ent.chplan) := by
  unfold swCountryEnt at h
  split at h
  · exact (nomatch h)
  · split at h
    · obtain rfl := Option.some.inj h
      exact .worldwide
    · exact .of_country h

theorem initOk_decideInitChplan (hwAlpha2 : Option Alpha2) (hwChplan : UInt8) (force : Bool)
    (swAlpha2 : Alpha2) (swChplan : UInt8) :
    InitOk db (decideInitChplan db hwAlpha2 hwChplan force swAlpha2 swChplan) := by
  have hhw := @initOk_decideHwChplan db hwAlpha2 hwChplan force
  unfold decideInitChplan
  dsimp only
  split
  · exact hhw
  · split
    next ent hent => exact initOk_country (settled_swCountryEnt hent)
    · split
      next h => exact initOk_plan h
      · exact hhw

theorem inv_initRfCtl {o : Option CountryChplan × Option UInt8} (h : InitOk db o) :
    Inv db ((initRfCtl o : RfCtl I L).initAlpha2, (initRfCtl o : RfCtl I L).initChannelPlan) none
      (initRfCtl o : RfCtl I L) := by
  have hsettled : Settled db ((initRfCtl o : RfCtl I L).initAlpha2,
      (initRfCtl o : RfCtl I L).initChannelPlan) := by
    obtain ⟨ent, chplan⟩ := o
    cases ent with
    | some ent =>
      obtain ⟨hplan, hsettled⟩ := h.country ent rfl
      obtain rfl : chplan = some ent.chplan := hplan
      exact hsettled
    | none =>
      have hne : chplan.getD chplanWorldwide ≠ chplanUnspecified := by
        cases chplan with
        | none => exact show chplanWorldwide ≠ _ by decide
        | some p => exact h.plan rfl p rfl
      have hplan := @Settled.of_plan db _ hne
      by_cases hw : chplan.getD chplanWorldwide = chplanWorldwide
      · rw [if_pos hw] at hplan
        simp only [initRfCtl, Option.getD_none, if_pos (isWorldWide_iff.mpr hw)]
        exact hplan
      · rw [if_neg hw] at hplan
        simp only [initRfCtl, Option.getD_none, if_neg fun hc => hw (isWorldWide_iff.mp hc)]
        exact hplan
  exact ⟨rfl, hsettled, fun _ => rfl, fun _ hs => (nomatch hs), fun _ => wellFormed_unset,
    ⟨fun _ _ => rfl, fun _ hp => (nomatch hp)⟩, fun _ => rfl, fun _ hp => (nomatch hp)⟩

theorem Inv.run {reqs : List (Req I L)} (h : Inv db s₀ w rf)
    (hok : Transition.Meets (reqStep db) (KeepsPolicy db) rf reqs)
    (hrun : Transition.run (reqStep db) rf reqs = some rf') :
    Inv db s₀ (lastSetting db w reqs) rf' := by
  induction reqs generalizing rf w with
  | nil =>
    obtain rfl := Option.some.inj hrun
    exact h
  | cons req reqs ih =>
    obtain ⟨m, hm, hrest⟩ := Transition.run_cons.mp hrun
    cases req with
    | user iface u => exact ih (h.user hm) (hok.2 m hm) hrest
    | countryIe iface link band opch ie =>
      exact ih (h.countryIe hok.1 hm) (hok.2 m hm) hrest

theorem user_recorded {u : UserReq} (heff : rf.effectedCisr.isSome)
    (h : reqStep db rf (.user iface u) = some rf') :
    ∃ s, u.setting db = some s ∧
      rf' = { rf with userAlpha2 := s.1, userChannelPlan := s.2 } := by
  obtain ⟨param, hs, -, hinr, rfl⟩ := user_cases h
  refine ⟨_, hs, ?_⟩
  obtain ⟨p, hp⟩ := Option.isSome_iff_exists.mp heff
  rw [applyParam_user hinr]
  simp [hp]

/-- **The regulatory setting**: after every run from the initialization whose requests keep the
policy, the most conservative record of a country element is in effect, and without a record the
setting of the last user or of the initialization; and while a record is in effect a user changes
nothing but the setting of the user. -/
theorem law_of_meets {hwAlpha2 : Option Alpha2} {hwChplan : UInt8} {hwForceChplan : Bool}
    {swAlpha2 : Alpha2} {swChplan : UInt8} {start : RfCtl I L} {reqs : List (Req I L)}
    (hstart : start = initRfCtl
      (decideInitChplan db hwAlpha2 hwChplan hwForceChplan swAlpha2 swChplan))
    (hok : Transition.Meets (reqStep db) (KeepsPolicy db) start reqs)
    (hrun : Transition.run (reqStep db) start reqs = some rf) :
    Law (start.initAlpha2, start.initChannelPlan) (lastSetting db none reqs) rf ∧
      ∀ iface u rf', rf.effectedCisr.isSome → reqStep db rf (.user iface u) = some rf' →
        ∃ s, u.setting db = some s ∧
          rf' = { rf with userAlpha2 := s.1, userChannelPlan := s.2 } := by
  subst hstart
  have hinv := @inv_initRfCtl I L db _
    (initOk_decideInitChplan hwAlpha2 hwChplan hwForceChplan swAlpha2 swChplan)
  exact ⟨(hinv.run hok hrun).law, fun _ _ _ => user_recorded⟩

def twoCountries : RegDb where
  chplanFromAlpha2 code :=
    if code = (74, 80) then some ⟨(74, 80), 0x27, edccaDef, edccaDef, txpwrLmtDef, 3⟩
    else if code = (88, 89) then some ⟨(88, 89), chplanNull, edccaDef, edccaDef, txpwrLmtDef, 3⟩
    else none
  isDomainCodeValid p := p = chplanNull || p = chplanWorldwide || p = 0x27
  defaultRegd2g p := if p = 0x27 then 2 else 0
  defaultRegd5g p := if p = 0x27 then 2 else 0
  isBchValid _ _ _ := false
  alpha2_eq {code ent} h := by
    split at h
    next hcode => rw [hcode, ← Option.some.inj h]
    · split at h
      next hcode => rw [hcode, ← Option.some.inj h]
      · exact (nomatch h)
  letters {code ent} h := by
    split at h
    next hcode => exact hcode ▸ by decide
    · split at h
      next hcode => exact hcode ▸ by decide
      · exact (nomatch h)
  chplan_ne {code ent} h := by
    split at h
    · rw [← Option.some.inj h]
      decide
    · split at h
      · rw [← Option.some.inj h]
        decide
      · exact (nomatch h)
  unspecified_invalid := by decide

def startWorldwide : RfCtl 2 1 := initRfCtl (decideInitChplan twoCountries none 0 false (48, 48) 0)

def join (iface : Fin 2) (code : Alpha2) : Req 2 1 :=
  .countryIe iface none .on24G 14 (some code)

/-- The second interface moves between two unknown countries, which leaves its record's plan, while
that record is in effect. -/
theorem law_of_meets_first :
    ∃ rf, Transition.run (reqStep twoCountries) startWorldwide
        [join 0 (74, 80), join 1 (81, 81), join 1 (82, 82)] = some rf ∧
      rf.effectedCisr = some (1, 0) ∧ Law (worldwideAlpha2, chplanWorldwide) none rf := by
  have hok : Transition.Meets (reqStep twoCountries) (KeepsPolicy twoCountries) startWorldwide
      [join 0 (74, 80), join 1 (81, 81), join 1 (82, 82)] := by decide
  exact ⟨_, rfl, rfl, (law_of_meets rfl hok rfl).1⟩

/-- **A link whose country becomes unknown keeps the plan of its record**, and the record of another
interface stays in effect, of a less conservative status. -/
theorem not_law :
    ¬∀ (db : RegDb) (start rf : RfCtl 2 1) (reqs : List (Req 2 1)),
      start = initRfCtl (decideInitChplan db none 0 false (48, 48) 0) →
      Transition.run (reqStep db) start reqs = some rf →
      Law (start.initAlpha2, start.initChannelPlan) (lastSetting db none reqs) rf := by
  intro h
  have hlaw := fun rf => h twoCountries startWorldwide rf
    [join 0 (74, 80), join 1 (88, 89), join 1 (81, 81)] rfl
  have hrun : ∃ rf, Transition.run (reqStep twoCountries) startWorldwide
      [join 0 (74, 80), join 1 (88, 89), join 1 (81, 81)] = some rf ∧
      rf.effectedCisr = some (0, 0) ∧ (rf.cisr (0, 0)).status = .opchNoexist ∧
      (rf.cisr (1, 0)).status = .unknown :=
    ⟨_, rfl, rfl, rfl, rfl⟩
  obtain ⟨rf, hrun, heff, hfirst, hsecond⟩ := hrun
  obtain ⟨p, hp, -, hbest, -⟩ := (hlaw rf hrun).record ⟨(1, 0), by rw [hsecond]; decide⟩
  obtain rfl := Option.some.inj (heff.symm.trans hp)
  have hle := hbest (1, 0)
  rw [hfirst, hsecond] at hle
  exact absurd hle (by decide)

end Rtl88x2eu.Regd
