import Rtl88x2eu.Scan.Network

/-!
# Changed beacons

`rtw_check_bcn_info` of `rtw_wlan_util.c` in a build with `CONFIG_BCN_CNT_CONFIRM_HDL`. A beacon
whose keys differ from the current ones is counted, and believed once it has come often enough in
a row. The count is an octet, and the threshold is a number that the user may set.

## Main definitions

* `BcnCheck`, `rtwCheckBcnInfo`: the state and the check
* `Sighting`, `sightings`: what each parseable beacon of a sequence met
* `runLength`, `Sighting.Lawful`, `Sighting.Counted`

## Main results

* `sightings_lawful`: a sequence in which every beacon is counted
-/

namespace Rtl88x2eu.Scan

structure BcnCheck where
  curBeaconKeys : BeaconKeys := {}
  newBeaconKeys : BeaconKeys := {}
  newBeaconCnts : ℕ := 0
deriving DecidableEq, Repr

/-- What `rtw_check_bcn_info` makes of received keys: a hidden name is taken from the current
keys. -/
def revealed (cur recv : BeaconKeys) : BeaconKeys :=
  if isHiddenSsid recv.ssid recv.ssidLen then
    { recv with
      ssid := recv.ssid.overwrite 0 (cur.ssid.take cur.ssidLen)
      ssidLen := cur.ssidLen }
  else recv

def BcnCheck.count (c : BcnCheck) (recv : BeaconKeys) : BcnCheck :=
  if recv = c.curBeaconKeys then { c with newBeaconCnts := 0 }
  else if c.newBeaconCnts = 0 ∨ recv ≠ c.newBeaconKeys then
    { c with newBeaconKeys := recv, newBeaconCnts := 1 }
  else { c with newBeaconCnts := (c.newBeaconCnts + 1) % 256 }

/-- The end of `rtw_check_bcn_info`: if counter >= max, it means beacon is changed really. -/
def BcnCheck.confirm (newBcnMax : ℤ) (c : BcnCheck) (recv : BeaconKeys) : Bool × BcnCheck :=
  if newBcnMax ≤ c.newBeaconCnts then
    let recv := rtwBcnKeyErrFix c.curBeaconKeys recv
    if rtwBcnKeyCompare c.curBeaconKeys recv then
      (true, { c with curBeaconKeys := recv, newBeaconCnts := 0 })
    else (false, c)
  else (true, c)

/-- `rtw_check_bcn_info` of an associated client, with `WIFI_CSA_UPDATE_BEACON` clear; `bcnKeys` is
`rtw_get_bcn_keys`. -/
def rtwCheckBcnInfo (newBcnMax : ℤ) (bcnKeys : Bytes → Option BeaconKeys) (c : BcnCheck)
    (pframe : Bytes) : Bool × BcnCheck :=
  match bcnKeys pframe with
  | none => (true, c)
  | some recv =>
    let recv := revealed c.curBeaconKeys recv
    (c.count recv).confirm newBcnMax recv

structure Sighting where
  keys : BeaconKeys
  before : BcnCheck
  ret : Bool
  after : BcnCheck

def Sighting.cur (s : Sighting) : BeaconKeys := s.before.curBeaconKeys

/-- The beacons of a sequence that could be parsed, the last one first, behind those of `past`. -/
def sightings (newBcnMax : ℤ) (bcnKeys : Bytes → Option BeaconKeys) :
    List Sighting → BcnCheck → List Bytes → List Sighting
  | past, _, [] => past
  | past, c, pframe :: frames =>
    let r := rtwCheckBcnInfo newBcnMax bcnKeys c pframe
    match bcnKeys pframe with
    | none => sightings newBcnMax bcnKeys past r.2 frames
    | some recv =>
      sightings newBcnMax bcnKeys (⟨revealed c.curBeaconKeys recv, c, r.1, r.2⟩ :: past) r.2 frames

/-- How many beacons in a row had the same keys, other than the current ones. -/
def runLength : List Sighting → ℕ
  | [] => 0
  | s :: past =>
    if s.keys = s.cur then 0
    else (past.takeWhile fun t => t.keys = s.keys ∧ t.cur = s.cur).length + 1

/-- The beacon was treated as its run of `n` beacons deserves: it is refused, or taken for the
current one, only at the end of a run that is long enough; there it is refused exactly if its keys,
after `rtw_bcn_key_err_fix`, fail `rtw_bcn_key_compare`. A beacon with the current keys starts the
count anew. -/
structure Sighting.Lawful (newBcnMax : ℤ) (s : Sighting) (n : ℕ) : Prop where
  only : s.ret = false ∨ s.after.curBeaconKeys ≠ s.cur → newBcnMax ≤ n
  refused : newBcnMax ≤ n →
    (s.ret = false ↔ rtwBcnKeyCompare s.cur (rtwBcnKeyErrFix s.cur s.keys) = false)
  anew : s.keys = s.cur → s.after.newBeaconCnts = 0

/-- The count has room for the beacon. -/
def Sighting.Counted (s : Sighting) : Prop :=
  s.keys ≠ s.cur → s.keys = s.before.newBeaconKeys → s.before.newBeaconCnts ≠ 255

def BeaconLaws (newBcnMax : ℤ) : List Sighting → Prop
  | [] => True
  | s :: past => s.Lawful newBcnMax (runLength (s :: past)) ∧ BeaconLaws newBcnMax past

/-! ## One beacon -/

structure Tracks (past : List Sighting) (c : BcnCheck) : Prop where
  small : c.newBeaconCnts < 256
  counter : ∀ k ≠ c.curBeaconKeys, rtwBcnKeyErrFix c.curBeaconKeys k = c.curBeaconKeys ∨
    (past.takeWhile fun t => t.keys = k ∧ t.cur = c.curBeaconKeys).length =
      if c.newBeaconKeys = k then c.newBeaconCnts else 0

@[simp] theorem rtwBcnKeyErrFix_self (k : BeaconKeys) : rtwBcnKeyErrFix k k = k := by
  unfold rtwBcnKeyErrFix
  split_ifs with hwide hoffset
  · exact absurd hoffset.1 hoffset.2
  · rfl
  · rfl

theorem runLength_cons_of_ne {s : Sighting} {past : List Sighting} (h : s.keys ≠ s.cur) :
    runLength (s :: past) =
      (past.takeWhile fun t => t.keys = s.keys ∧ t.cur = s.cur).length + 1 := by
  rw [runLength, if_neg h]

theorem runLength_cons_of_eq {s : Sighting} {past : List Sighting} (h : s.keys = s.cur) :
    runLength (s :: past) = 0 := by
  rw [runLength, if_pos h]

section Step

variable {newBcnMax : ℤ} {past : List Sighting} {c : BcnCheck} {k : BeaconKeys}

def BcnCheck.sight (newBcnMax : ℤ) (c : BcnCheck) (k : BeaconKeys) : Sighting :=
  ⟨k, c, ((c.count k).confirm newBcnMax k).1, ((c.count k).confirm newBcnMax k).2⟩

theorem sight_of_eq (hk : k = c.curBeaconKeys) :
    c.sight newBcnMax k = ⟨k, c, true, { c with newBeaconCnts := 0 }⟩ := by
  subst hk
  simp [BcnCheck.sight, BcnCheck.count, BcnCheck.confirm]

theorem count_of_ne (hc : Tracks past c) (hk : k ≠ c.curBeaconKeys)
    (hroom : k = c.newBeaconKeys → c.newBeaconCnts ≠ 255) :
    c.count k = { c with
      newBeaconKeys := k
      newBeaconCnts := (if c.newBeaconKeys = k then c.newBeaconCnts else 0) + 1 } := by
  have hsmall := hc.small
  rw [BcnCheck.count, if_neg hk]
  by_cases hsame : c.newBeaconKeys = k
  · have hne := hroom hsame.symm
    rw [if_pos hsame]
    split_ifs with hstart
    · have hzero : c.newBeaconCnts = 0 := hstart.resolve_right fun h => h hsame.symm
      rw [hzero]
    · rw [Nat.mod_eq_of_lt (by omega), ← hsame]
  · rw [if_pos (Or.inr fun h => hsame h.symm), if_neg hsame]

theorem sight_cases (hc : Tracks past c) (hk : k ≠ c.curBeaconKeys)
    (hroom : k = c.newBeaconKeys → c.newBeaconCnts ≠ 255) :
    let n := (if c.newBeaconKeys = k then c.newBeaconCnts else 0) + 1
    let fixed := rtwBcnKeyErrFix c.curBeaconKeys k
    let counted : BcnCheck := { c with newBeaconKeys := k, newBeaconCnts := n }
    (¬ newBcnMax ≤ n ∧ c.sight newBcnMax k = ⟨k, c, true, counted⟩) ∨
      (newBcnMax ≤ n ∧ rtwBcnKeyCompare c.curBeaconKeys fixed = false ∧
        c.sight newBcnMax k = ⟨k, c, false, counted⟩) ∨
      newBcnMax ≤ n ∧ rtwBcnKeyCompare c.curBeaconKeys fixed = true ∧
        c.sight newBcnMax k =
          ⟨k, c, true, { counted with curBeaconKeys := fixed, newBeaconCnts := 0 }⟩ := by
  intro n fixed counted
  have hcount : c.count k = counted := count_of_ne hc hk hroom
  rw [BcnCheck.sight, hcount]
  by_cases hmax : newBcnMax ≤ n
  · cases hcmp : rtwBcnKeyCompare c.curBeaconKeys fixed with
    | false =>
      have hconfirm : counted.confirm newBcnMax k = (false, counted) := by
        simp [BcnCheck.confirm, counted, hmax, fixed, hcmp]
      exact Or.inr (Or.inl ⟨hmax, rfl, by rw [hconfirm]⟩)
    | true =>
      have hconfirm : counted.confirm newBcnMax k =
          (true, { counted with curBeaconKeys := fixed, newBeaconCnts := 0 }) := by
        simp [BcnCheck.confirm, counted, hmax, fixed, hcmp]
      exact Or.inr (Or.inr ⟨hmax, rfl, by rw [hconfirm]⟩)
  · have hconfirm : counted.confirm newBcnMax k = (true, counted) := by
      simp [BcnCheck.confirm, counted, hmax]
    exact Or.inl ⟨hmax, by rw [hconfirm]⟩

/-- **A counted beacon is treated lawfully.** -/
theorem sight_lawful (hc : Tracks past c)
    (hroom : (c.sight newBcnMax k).Counted) :
    (c.sight newBcnMax k).Lawful newBcnMax (runLength (c.sight newBcnMax k :: past)) := by
  by_cases hk : k = c.curBeaconKeys
  · have hrun : runLength (c.sight newBcnMax k :: past) = 0 := runLength_cons_of_eq hk
    rw [hrun, sight_of_eq hk]
    refine ⟨?_, fun _ => ?_, fun _ => rfl⟩
    · rintro (hret | hcur)
      · cases hret
      · exact absurd rfl hcur
    · simp [Sighting.cur, hk]
  · have hrun : runLength (c.sight newBcnMax k :: past) =
        (past.takeWhile fun t => t.keys = k ∧ t.cur = c.curBeaconKeys).length + 1 :=
      runLength_cons_of_ne hk
    have hcounter := hc.counter k hk
    have hcases := @sight_cases newBcnMax past c k hc hk (hroom hk)
    have hanew : (c.sight newBcnMax k).keys = (c.sight newBcnMax k).cur →
        (c.sight newBcnMax k).after.newBeaconCnts = 0 := fun h => absurd h hk
    have hrun' : runLength (c.sight newBcnMax k :: past) =
        (past.takeWhile fun t => t.keys = k ∧ t.cur = c.curBeaconKeys).length + 1 := hrun
    rcases hcounter with hfix | hcounter
    · -- the run has been taken for the current beacon before
      rw [hfix] at hcases
      simp only [rtwBcnKeyCompare_self, Bool.true_eq_false, false_and, and_false, false_or]
        at hcases
      have hret : (c.sight newBcnMax k).ret = true ∧
          (c.sight newBcnMax k).after.curBeaconKeys = c.curBeaconKeys := by
        rcases hcases with ⟨-, hs⟩ | ⟨-, -, hs⟩ <;> rw [hs] <;> exact ⟨rfl, rfl⟩
      refine ⟨?_, fun _ => ?_, hanew⟩
      · rintro (hfalse | hcur)
        · exact absurd (hret.1.symm.trans hfalse) Bool.noConfusion
        · exact absurd hret.2 hcur
      · show _ ↔ rtwBcnKeyCompare c.curBeaconKeys (rtwBcnKeyErrFix c.curBeaconKeys k) = false
        rw [hret.1, hfix, rtwBcnKeyCompare_self]
    · rw [hrun', hcounter]
      refine ⟨?_, fun hmax => ?_, hanew⟩
      · rcases hcases with ⟨-, hs⟩ | ⟨hmax, -⟩ | ⟨hmax, -⟩
        · rw [hs]
          rintro (hret | hcur)
          · cases hret
          · exact absurd rfl hcur
        · exact fun _ => hmax
        · exact fun _ => hmax
      · show _ ↔ rtwBcnKeyCompare c.curBeaconKeys (rtwBcnKeyErrFix c.curBeaconKeys k) = false
        rcases hcases with ⟨hless, -⟩ | ⟨-, hcmp, hs⟩ | ⟨-, hcmp, hs⟩
        · exact absurd hmax hless
        · rw [hs, hcmp]
        · rw [hs, hcmp]

/-- **A counted beacon keeps the counter on track.** -/
theorem Tracks.sight (hc : Tracks past c) (hroom : (c.sight newBcnMax k).Counted) :
    Tracks (c.sight newBcnMax k :: past) (c.sight newBcnMax k).after := by
  by_cases hk : k = c.curBeaconKeys
  · rw [sight_of_eq hk]
    refine ⟨Nat.zero_lt_succ _, fun k' hk' => Or.inr ?_⟩
    have hne : k ≠ k' := fun h => hk' (h.symm.trans hk)
    simp [hne]
  · have hcases := @sight_cases newBcnMax past c k hc hk (hroom hk)
    have hsmall : (if c.newBeaconKeys = k then c.newBeaconCnts else 0) + 1 < 256 := by
      have hlt := hc.small
      split_ifs with hsame
      · have hne : c.newBeaconCnts ≠ 255 := hroom hk hsame.symm
        omega
      · omega
    have hcounted : ∀ ret, Tracks (⟨k, c, ret, { c with
        newBeaconKeys := k
        newBeaconCnts := (if c.newBeaconKeys = k then c.newBeaconCnts else 0) + 1 }⟩ :: past)
        { c with
          newBeaconKeys := k
          newBeaconCnts := (if c.newBeaconKeys = k then c.newBeaconCnts else 0) + 1 } := by
      refine fun ret => ⟨hsmall, fun k' hk' => ?_⟩
      by_cases hsame : k = k'
      · subst hsame
        refine (hc.counter k hk).imp id fun hcounter => ?_
        simp only [Sighting.cur] at hcounter
        simp [Sighting.cur, hcounter]
      · exact Or.inr (by simp [hsame])
    rcases hcases with ⟨-, hs⟩ | ⟨-, -, hs⟩ | ⟨-, -, hs⟩
    · rw [hs]
      exact hcounted true
    · rw [hs]
      exact hcounted false
    · rw [hs]
      refine ⟨Nat.zero_lt_succ _, fun k' hk' => ?_⟩
      by_cases hfix : rtwBcnKeyErrFix c.curBeaconKeys k = c.curBeaconKeys
      · by_cases hsame : k = k'
        · subst hsame
          refine Or.inl ?_
          show rtwBcnKeyErrFix (rtwBcnKeyErrFix c.curBeaconKeys k) k = _
          rw [hfix]
          exact hfix
        · exact Or.inr (by simp [hsame])
      · -- the current keys are new, so the run ends here
        have hcur : c.curBeaconKeys ≠ rtwBcnKeyErrFix c.curBeaconKeys k := Ne.symm hfix
        exact Or.inr (by simp [Sighting.cur, hcur])

end Step

theorem mem_sightings {newBcnMax : ℤ} {bcnKeys : Bytes → Option BeaconKeys} {frames : List Bytes}
    {past : List Sighting} {c : BcnCheck} {s : Sighting} (hs : s ∈ past) :
    s ∈ sightings newBcnMax bcnKeys past c frames := by
  induction frames generalizing past c with
  | nil => exact hs
  | cons pframe frames ih =>
    simp only [sightings]
    split
    · exact ih hs
    · exact ih (.tail _ hs)

theorem beaconLaws_of_tracks {newBcnMax : ℤ} {bcnKeys : Bytes → Option BeaconKeys}
    {frames : List Bytes} {past : List Sighting} {c : BcnCheck} (hc : Tracks past c)
    (hpast : BeaconLaws newBcnMax past)
    (hcounted : ∀ s ∈ sightings newBcnMax bcnKeys past c frames, s.Counted) :
    BeaconLaws newBcnMax (sightings newBcnMax bcnKeys past c frames) := by
  induction frames generalizing past c with
  | nil => exact hpast
  | cons pframe frames ih =>
    cases hparse : bcnKeys pframe with
    | none =>
      simp only [sightings, rtwCheckBcnInfo, hparse] at hcounted ⊢
      exact ih hc hpast hcounted
    | some recv =>
      simp only [sightings, rtwCheckBcnInfo, hparse] at hcounted ⊢
      have hroom : (c.sight newBcnMax (revealed c.curBeaconKeys recv)).Counted :=
        hcounted _ (mem_sightings List.mem_cons_self)
      exact ih (hc.sight hroom) ⟨sight_lawful hc hroom, hpast⟩ hcounted

/-- **A changed beacon is believed only when confirmed**, in every sequence of beacons in which
the count has room for each of them. -/
theorem sightings_lawful (newBcnMax : ℤ) (bcnKeys : Bytes → Option BeaconKeys) (c : BcnCheck)
    (frames : List Bytes) (hstart : c.newBeaconCnts = 0)
    (hcounted : ∀ s ∈ sightings newBcnMax bcnKeys [] c frames, s.Counted) :
    BeaconLaws newBcnMax (sightings newBcnMax bcnKeys [] c frames) := by
  refine beaconLaws_of_tracks ⟨hstart ▸ Nat.zero_lt_succ _, fun k _ => Or.inr ?_⟩ trivial hcounted
  simp [hstart]

def channelKeys : Bytes → Option BeaconKeys
  | [] => none
  | ch :: _ => some { ssid := 1 :: List.replicate 31 0, ssidLen := 1, ch := ch.toNat }

/-- A new channel is believed the third time, a broken beacon in between or not. -/
theorem sightings_lawful_third :
    BeaconLaws 3 (sightings 3 channelKeys [] {} [[6], [6], [], [6]]) :=
  sightings_lawful 3 channelKeys {} _ rfl (by
    intro s hs
    have hall : ∀ t ∈ sightings 3 channelKeys [] {} [[6], [6], [], [6]],
        t.before.newBeaconCnts ≠ 255 := by decide
    exact fun _ _ => hall s hs)

/-- **The count wraps**: with a threshold of 256, the 256th beacon in a row is not believed. -/
theorem not_beaconLaws :
    ¬ BeaconLaws 256 (sightings 256 channelKeys [] {} (List.replicate 256 [6])) := by
  intro hlaws
  have hlast : (sightings 256 channelKeys [] {} (List.replicate 256 [6])).head?.any fun s =>
      s.ret && !rtwBcnKeyCompare s.cur (rtwBcnKeyErrFix s.cur s.keys) := by
    decide +kernel
  have hrun : runLength (sightings 256 channelKeys [] {} (List.replicate 256 [6])) = 256 := by
    decide +kernel
  cases hs : sightings 256 channelKeys [] {} (List.replicate 256 [6]) with
  | nil =>
    rw [hs] at hlast
    cases hlast
  | cons s past =>
    rw [hs] at hlaws hlast hrun
    have hrefused := hlaws.1.refused (by rw [hrun]; decide)
    simp only [List.head?_cons, Option.any_some, Bool.and_eq_true, Bool.not_eq_true'] at hlast
    exact Bool.false_ne_true ((hrefused.mpr hlast.2).symm.trans hlast.1)

end Rtl88x2eu.Scan
