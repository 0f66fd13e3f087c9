import Mathlib.Data.Finset.Card
import Mathlib.Data.Finset.Range
import Mathlib.Data.Nat.ModEq
import Mathlib.Logic.Function.Basic
import Rtl88x2eu.Lib.Transition

/-!
# Association ids

An access point keeps a table of its stations by association id. `rtw_aid_alloc` looks for a free
entry from a cursor on, around the end of the table; round robin moves the cursor behind the entry
that was given out. On its way it counts the entries that are taken.

## Main definitions

* `rtwAidAlloc`, `rtwFreeStainfo`
* `step`, `AidLaw`, `Allowed`

## Main results

* `alloc_cases`: what an allocation does
* `aids_iff`: a run keeps to the law exactly if all of its allocations are allowed
-/

namespace Rtl88x2eu.Sta

variable {σ : Type*}

structure AidLimits where
  maxAid : ℕ
  maxNumSta : ℕ

/-- `struct sta_priv`; the entry of an id `a` is `staAid (a - 1)`, and `aid` is that of the
stations' `cmn`. -/
structure StaPriv (σ : Type*) where
  staAid : ℕ → Option σ
  startedAid : ℕ
  rrAid : Bool
  aid : σ → ℕ

variable {c : AidLimits} {s s' : StaPriv σ} {sta : σ} {n i k : ℕ}

def StaPriv.cursor (c : AidLimits) (s : StaPriv σ) (i : ℕ) : ℕ :=
  (i + s.startedAid - 1) % c.maxAid + 1

/-- The variables behind the loop of `rtw_aid_alloc`. -/
structure AidScan where
  i : ℕ
  aid : ℕ
  usedCnt : ℕ

/-- The loop of `rtw_aid_alloc`, with `n` passes left. -/
def aidScan (c : AidLimits) (s : StaPriv σ) : ℕ → AidScan → AidScan
  | 0, v => v
  | n + 1, v =>
    let v := { v with aid := s.cursor c v.i }
    if s.staAid (v.aid - 1) = none then v
    else
      let v := { v with usedCnt := v.usedCnt + 1 }
      if c.maxNumSta ≤ v.usedCnt then v else aidScan c s n { v with i := v.i + 1 }

/-- Behind the loop, from a pass on that found the entries before it taken. -/
theorem aidScan_cases (hn : i + n = c.maxAid) (a : ℕ) :
    (∃ k, k < c.maxAid ∧ k < c.maxNumSta ∧ s.staAid (s.cursor c k - 1) = none ∧
      aidScan c s n ⟨i, a, i⟩ = ⟨k, s.cursor c k, k⟩) ∨
    (∀ k, i ≤ k → k < c.maxAid → k < c.maxNumSta → s.staAid (s.cursor c k - 1) ≠ none) ∧
      (c.maxAid ≤ (aidScan c s n ⟨i, a, i⟩).i ∨
        c.maxNumSta ≤ (aidScan c s n ⟨i, a, i⟩).usedCnt) := by
  induction n generalizing i a with
  | zero =>
    have hend : c.maxAid ≤ i := hn.ge
    exact .inr ⟨fun k hk hlt => absurd hlt (by omega), .inl hend⟩
  | succ n ih =>
    rw [aidScan]
    dsimp only
    by_cases hfree : s.staAid (s.cursor c i - 1) = none
    · rw [if_pos hfree]
      by_cases hlimit : i < c.maxNumSta
      · exact .inl ⟨i, by omega, hlimit, hfree, rfl⟩
      · exact .inr ⟨fun k hk _ hlt => absurd hlt (by omega), .inr (not_lt.mp hlimit)⟩
    · rw [if_neg hfree]
      by_cases hlimit : c.maxNumSta ≤ i + 1
      · rw [if_pos hlimit]
        refine .inr ⟨fun k hk _ hlt => ?_, .inr hlimit⟩
        obtain rfl : k = i := by omega
        exact hfree
      · rw [if_neg hlimit]
        rcases ih (i := i + 1) (by omega) (s.cursor c i) with hfound | ⟨htaken, hend⟩
        · exact .inl hfound
        · refine .inr ⟨fun k hk hlt hlt' => ?_, hend⟩
          rcases hk.eq_or_lt with rfl | hk
          · exact hfree
          · exact htaken k hk hlt hlt'

/-- The entries that are taken. -/
def StaPriv.used (c : AidLimits) (s : StaPriv σ) : Finset ℕ :=
  (Finset.range c.maxAid).filter fun i => s.staAid i ≠ none

def StaPriv.inUse (c : AidLimits) (s : StaPriv σ) : ℕ := (s.used c).card

/-- The entries that the search looks at before it gives up. -/
def StaPriv.AllTaken (c : AidLimits) (s : StaPriv σ) : Prop :=
  ∀ k < c.maxAid, k < c.maxNumSta → s.staAid (s.cursor c k - 1) ≠ none

theorem cursor_sub_one_lt (hk : k < c.maxAid) : s.cursor c k - 1 < c.maxAid :=
  Nat.mod_lt _ (Nat.zero_lt_of_lt hk)

/-- The search comes to different entries. -/
theorem cursor_injOn (hstart : 1 ≤ s.startedAid) :
    Set.InjOn (fun k => s.cursor c k - 1) {k | k < c.maxAid} := by
  intro k hk k' hk' heq
  have hmod : (k + (s.startedAid - 1)) % c.maxAid = (k' + (s.startedAid - 1)) % c.maxAid := by
    rw [← Nat.add_sub_assoc hstart, ← Nat.add_sub_assoc hstart]
    exact heq
  exact (Nat.ModEq.add_right_cancel' _ hmod).eq_of_lt_of_lt hk hk'

theorem mem_used : i ∈ s.used c ↔ i < c.maxAid ∧ s.staAid i ≠ none := by
  rw [StaPriv.used, Finset.mem_filter, Finset.mem_range]

theorem min_le_inUse (hstart : 1 ≤ s.startedAid) (htaken : s.AllTaken c) :
    min c.maxAid c.maxNumSta ≤ s.inUse c := by
  have hcard : (Finset.range (min c.maxAid c.maxNumSta)).card ≤ (s.used c).card := by
    refine Finset.card_le_card_of_injOn (fun k => s.cursor c k - 1) (fun k hk => ?_) ?_
    · have hk := Finset.mem_range.mp hk
      have hmax := hk.trans_le (min_le_left _ _)
      exact mem_used.mpr ⟨cursor_sub_one_lt hmax, htaken k hmax (hk.trans_le (min_le_right _ _))⟩
    · refine (cursor_injOn hstart).mono fun k hk => ?_
      exact (Finset.mem_range.mp hk).trans_le (min_le_left _ _)
  rwa [Finset.card_range] at hcard

theorem inUse_lt_maxAid {a : ℕ} (ha : 1 ≤ a) (hmax : a ≤ c.maxAid)
    (hfree : s.staAid (a - 1) = none) : s.inUse c < c.maxAid := by
  have hcard : s.inUse c < (Finset.range c.maxAid).card := by
    refine Finset.card_lt_card (Finset.filter_ssubset.mpr ⟨a - 1, ?_, not_not.mpr hfree⟩)
    exact Finset.mem_range.mpr (by omega)
  rwa [Finset.card_range] at hcard

/-! ## The table -/

variable [DecidableEq σ]

def rtwAidAlloc (c : AidLimits) (s : StaPriv σ) (sta : σ) : StaPriv σ × ℕ :=
  let v := aidScan c s c.maxAid ⟨0, 0, 0⟩
  let aid := if c.maxAid ≤ v.i ∨ c.maxNumSta ≤ v.usedCnt then 0 else v.aid
  let s := { s with aid := Function.update s.aid sta aid }
  if aid = 0 then (s, aid)
  else
    ({ s with
        staAid := Function.update s.staAid (aid - 1) (some sta)
        startedAid := if s.rrAid then aid % c.maxAid + 1 else s.startedAid }, aid)

def rtwFreeStainfo (s : StaPriv σ) (sta : σ) (hwStateAp : Bool) : StaPriv σ :=
  if hwStateAp ∧ 0 < s.aid sta ∧ s.staAid (s.aid sta - 1) = some sta then
    { s with
      staAid := Function.update s.staAid (s.aid sta - 1) none
      aid := Function.update s.aid sta 0 }
  else s

def rtwInitStainfo (s : StaPriv σ) (sta : σ) : StaPriv σ :=
  { s with aid := Function.update s.aid sta 0 }

/-- `proc_set_aid_status`: round robin, and where the search starts. -/
def procSetAidStatus (c : AidLimits) (s : StaPriv σ) (rr : Bool) (started : Option ℕ) :
    StaPriv σ :=
  { s with
    rrAid := rr
    startedAid := started.elim s.startedAid fun a =>
      if a % (c.maxAid + 1) = 0 then 1 else a % (c.maxAid + 1) }

/-- What happens to the table. -/
inductive Ev (σ : Type*)
  | alloc (sta : σ)
  | free (sta : σ) (hwStateAp : Bool)
  | init (sta : σ)
  | config (rr : Bool) (started : Option ℕ)

/-- The callers allocate for stations without an id. -/
def step (c : AidLimits) (s : StaPriv σ) : Ev σ → Option (StaPriv σ)
  | .alloc sta => if s.aid sta = 0 then some (rtwAidAlloc c s sta).1 else none
  | .free sta hwStateAp => some (rtwFreeStainfo s sta hwStateAp)
  | .init sta => some (rtwInitStainfo s sta)
  | .config rr started => some (procSetAidStatus c s rr started)

def initial : StaPriv σ where
  staAid _ := none
  startedAid := 1
  rrAid := false
  aid _ := 0

/-- **The law of the table.** -/
structure AidLaw (c : AidLimits) (s : StaPriv σ) : Prop where
  range : ∀ sta, s.aid sta ≠ 0 → 1 ≤ s.aid sta ∧ s.aid sta ≤ c.maxAid
  present : ∀ sta, s.aid sta ≠ 0 → s.staAid (s.aid sta - 1) = some sta
  distinct : ∀ sta sta', s.aid sta ≠ 0 → s.aid sta = s.aid sta' → sta = sta'
  granted : ∀ sta, s.inUse c < c.maxNumSta → (∃ a, 1 ≤ a ∧ a ≤ c.maxAid ∧ s.staAid (a - 1) = none) →
    (rtwAidAlloc c s sta).2 ≠ 0
  limit : s.inUse c ≤ c.maxNumSta

/-- **An allocation is allowed** below the limit, or where the first entries from the cursor on, as
many as the limit, are all taken. -/
def Allowed (c : AidLimits) (s : StaPriv σ) : Ev σ → Prop
  | .alloc _ => s.inUse c < c.maxNumSta ∨ s.AllTaken c
  | _ => True

omit [DecidableEq σ] in
instance StaPriv.AllTaken.decidable (c : AidLimits) (s : StaPriv σ) : Decidable (s.AllTaken c) :=
  inferInstanceAs (Decidable (∀ k < c.maxAid, k < c.maxNumSta → s.staAid (s.cursor c k - 1) ≠ none))

instance Allowed.decidable (c : AidLimits) (s : StaPriv σ) : ∀ e, Decidable (Allowed c s e)
  | .alloc _ => inferInstanceAs (Decidable (_ ∨ _))
  | .free .. => isTrue trivial
  | .init _ => isTrue trivial
  | .config .. => isTrue trivial

/-- The station gets the id of a free entry. -/
def grant (c : AidLimits) (s : StaPriv σ) (sta : σ) (a : ℕ) : StaPriv σ where
  staAid := Function.update s.staAid (a - 1) (some sta)
  startedAid := if s.rrAid then a % c.maxAid + 1 else s.startedAid
  rrAid := s.rrAid
  aid := Function.update s.aid sta a

/-- The station gets none. -/
def refuse (s : StaPriv σ) (sta : σ) : StaPriv σ := { s with aid := Function.update s.aid sta 0 }

/-- **What an allocation does.** -/
theorem alloc_cases (c : AidLimits) (s : StaPriv σ) (sta : σ) :
    (∃ k, k < c.maxAid ∧ k < c.maxNumSta ∧ s.staAid (s.cursor c k - 1) = none ∧
      rtwAidAlloc c s sta = (grant c s sta (s.cursor c k), s.cursor c k)) ∨
    s.AllTaken c ∧ rtwAidAlloc c s sta = (refuse s sta, 0) := by
  unfold rtwAidAlloc
  dsimp only
  rcases aidScan_cases (c := c) (s := s) (Nat.zero_add c.maxAid) 0 with
    ⟨k, hk, hk', hfree, hscan⟩ | ⟨htaken, hend⟩
  · left
    refine ⟨k, hk, hk', hfree, ?_⟩
    have hid : (if c.maxAid ≤ k ∨ c.maxNumSta ≤ k then 0 else s.cursor c k) = s.cursor c k :=
      if_neg (by omega)
    rw [hscan]
    dsimp only
    have hne : s.cursor c k ≠ 0 := Nat.succ_ne_zero _
    rw [hid, if_neg hne]
    rfl
  · right
    refine ⟨fun k => htaken k (Nat.zero_le k), ?_⟩
    rw [if_pos hend]
    rfl

/-- **An allocation succeeds** where an id is free and the limit is not reached. -/
theorem alloc_granted (hstart : 1 ≤ s.startedAid) (sta : σ) (hlimit : s.inUse c < c.maxNumSta)
    (hfree : ∃ a, 1 ≤ a ∧ a ≤ c.maxAid ∧ s.staAid (a - 1) = none) :
    (rtwAidAlloc c s sta).2 ≠ 0 := by
  obtain ⟨a, ha, hmax, hnone⟩ := hfree
  have hlt := inUse_lt_maxAid ha hmax hnone
  rcases alloc_cases c s sta with ⟨k, -, -, -, halloc⟩ | ⟨htaken, -⟩
  · rw [halloc]
    exact Nat.succ_ne_zero _
  · have hmin := min_le_inUse hstart htaken
    omega

theorem inUse_grant {a : ℕ} (hlt : a - 1 < c.maxAid) (hfree : s.staAid (a - 1) = none) :
    (grant c s sta a).inUse c = s.inUse c + 1 := by
  have hused : (grant c s sta a).used c = insert (a - 1) (s.used c) := by
    ext i
    rw [Finset.mem_insert, mem_used, mem_used]
    change i < c.maxAid ∧ Function.update s.staAid (a - 1) (some sta) i ≠ none ↔ _
    by_cases hi : i = a - 1
    · subst hi
      rw [Function.update_self]
      exact iff_of_true ⟨hlt, nofun⟩ (.inl rfl)
    · rw [Function.update_of_ne hi]
      exact (or_iff_right hi).symm
  have hnot : a - 1 ∉ s.used c := fun hmem => (mem_used.mp hmem).2 hfree
  unfold StaPriv.inUse
  rw [hused, Finset.card_insert_of_notMem hnot]

/-! ## Steps -/

/-- The ids that stations hold are those of their entries, and the cursor is an id. -/
structure Held (c : AidLimits) (s : StaPriv σ) : Prop where
  range : ∀ sta, s.aid sta ≠ 0 → s.aid sta ≤ c.maxAid
  present : ∀ sta, s.aid sta ≠ 0 → s.staAid (s.aid sta - 1) = some sta
  started : 1 ≤ s.startedAid

theorem Held.law (h : Held c s) (hlimit : s.inUse c ≤ c.maxNumSta) : AidLaw c s where
  range sta hsta := ⟨Nat.one_le_iff_ne_zero.mpr hsta, h.range sta hsta⟩
  present := h.present
  distinct := by
    intro sta sta' hsta heq
    have hentry := h.present sta hsta
    have hentry' := h.present sta' (heq ▸ hsta)
    rw [← heq] at hentry'
    exact Option.some.inj (hentry.symm.trans hentry')
  granted sta := alloc_granted h.started sta
  limit := hlimit

theorem Held.refuse (h : Held c s) (sta : σ) : Held c (refuse s sta) := by
  refine ⟨fun x hx => ?_, fun x hx => ?_, h.started⟩
  all_goals
    change Function.update s.aid sta 0 x ≠ 0 at hx
    have hne : x ≠ sta := by
      rintro rfl
      exact hx (Function.update_self ..)
    rw [Function.update_of_ne hne] at hx
  · exact (congrArg (· ≤ c.maxAid) (Function.update_of_ne hne ..)).mpr (h.range x hx)
  · have hentry := h.present x hx
    change s.staAid (Function.update s.aid sta 0 x - 1) = some x
    rwa [Function.update_of_ne hne]

theorem Held.grant {a : ℕ} (h : Held c s) (hmax : a ≤ c.maxAid)
    (hfree : s.staAid (a - 1) = none) : Held c (grant c s sta a) := by
  refine ⟨fun x hx => ?_, fun x hx => ?_, ?_⟩
  · change Function.update s.aid sta a x ≤ c.maxAid
    change Function.update s.aid sta a x ≠ 0 at hx
    by_cases hxs : x = sta
    · subst hxs
      rwa [Function.update_self]
    · rw [Function.update_of_ne hxs] at hx ⊢
      exact h.range x hx
  · change Function.update s.staAid (a - 1) (some sta) (Function.update s.aid sta a x - 1) = some x
    change Function.update s.aid sta a x ≠ 0 at hx
    by_cases hxs : x = sta
    · subst hxs
      rw [Function.update_self, Function.update_self]
    · rw [Function.update_of_ne hxs] at hx ⊢
      have hentry := h.present x hx
      -- the entry of another station is not the free one
      have hne : s.aid x - 1 ≠ a - 1 := by
        intro heq
        rw [heq, hfree] at hentry
        cases hentry
      rwa [Function.update_of_ne hne]
  · change 1 ≤ if s.rrAid then a % c.maxAid + 1 else s.startedAid
    split
    · exact Nat.le_add_left ..
    · exact h.started

theorem Held.free (h : Held c s) (sta : σ) (hwStateAp : Bool) :
    Held c (rtwFreeStainfo s sta hwStateAp) := by
  unfold rtwFreeStainfo
  split
  · next hfree =>
    obtain ⟨-, -, howner⟩ := hfree
    have hrefuse := h.refuse sta
    refine ⟨hrefuse.range, fun x hx => ?_, h.started⟩
    have hentry := hrefuse.present x hx
    have hne : x ≠ sta := by
      rintro rfl
      exact hx (Function.update_self ..)
    change Function.update s.staAid (s.aid sta - 1) none (Function.update s.aid sta 0 x - 1) = _
    change s.staAid (Function.update s.aid sta 0 x - 1) = some x at hentry
    -- the entry that is cleared is that of the removed station
    rw [Function.update_of_ne, hentry]
    intro heq
    rw [heq, howner] at hentry
    exact hne (Option.some.inj hentry).symm
  · exact h

theorem inUse_free_le (s : StaPriv σ) (sta : σ) (hwStateAp : Bool) :
    (rtwFreeStainfo s sta hwStateAp).inUse c ≤ s.inUse c := by
  refine Finset.card_le_card fun i hi => ?_
  obtain ⟨hrange, hi⟩ := mem_used.mp hi
  refine mem_used.mpr ⟨hrange, fun hnone => hi ?_⟩
  unfold rtwFreeStainfo
  split
  · by_cases heq : i = s.aid sta - 1
    · subst heq
      exact Function.update_self ..
    · exact (Function.update_of_ne heq ..).trans hnone
  · exact hnone

section

omit [DecidableEq σ]

theorem Held.config (h : Held c s) (rr : Bool) (started : Option ℕ) :
    Held c (procSetAidStatus c s rr started) := by
  refine ⟨h.range, h.present, ?_⟩
  cases started with
  | none => exact h.started
  | some a =>
    change 1 ≤ if a % (c.maxAid + 1) = 0 then 1 else a % (c.maxAid + 1)
    split
    · exact le_rfl
    · next hne => exact Nat.one_le_iff_ne_zero.mpr hne

theorem held_initial : Held c (initial : StaPriv σ) :=
  ⟨fun _ h => absurd rfl h, fun _ h => absurd rfl h, le_rfl⟩

theorem inUse_initial : (initial : StaPriv σ).inUse c = 0 := by
  simp [StaPriv.inUse, StaPriv.used, initial]

end

/-- **A step** leaves the law exactly with an allocation that is not allowed. -/
theorem step_law (h : Held c s) (hlimit : s.inUse c ≤ c.maxNumSta) {e : Ev σ}
    (hstep : step c s e = some s') :
    Held c s' ∧ (s'.inUse c ≤ c.maxNumSta ↔ Allowed c s e) := by
  cases e with
  | alloc sta =>
    rw [step] at hstep
    split at hstep
    · obtain rfl := Option.some.inj hstep
      rcases alloc_cases c s sta with ⟨k, hk, hk', hfree, halloc⟩ | ⟨htaken, halloc⟩
      · have hlt : s.cursor c k - 1 < c.maxAid := cursor_sub_one_lt hk
        rw [halloc]
        refine ⟨h.grant hlt hfree, ?_⟩
        rw [inUse_grant hlt hfree]
        constructor
        · exact Or.inl
        · rintro (hbelow | htaken)
          · exact hbelow
          · exact absurd hfree (htaken k hk hk')
      · rw [halloc]
        exact ⟨h.refuse sta, iff_of_true hlimit (.inr htaken)⟩
    · cases hstep
  | free sta hwStateAp =>
    obtain rfl := Option.some.inj hstep
    exact ⟨h.free sta hwStateAp, iff_of_true ((inUse_free_le s sta hwStateAp).trans hlimit) trivial⟩
  | init sta =>
    obtain rfl := Option.some.inj hstep
    exact ⟨h.refuse sta, iff_of_true hlimit trivial⟩
  | config rr started =>
    obtain rfl := Option.some.inj hstep
    exact ⟨h.config rr started, iff_of_true hlimit trivial⟩

/-- **Every state of a run keeps to the law exactly if every allocation is allowed.** -/
theorem aids_iff (c : AidLimits) (es : List (Ev σ)) (s' : StaPriv σ)
    (hrun : Transition.run (step c) initial es = some s') :
    (∀ es' t, es' <+: es → Transition.run (step c) initial es' = some t → AidLaw c t) ↔
      Transition.Meets (step c) (Allowed c) initial es := by
  refine Transition.forall_prefix_iff_meets
    (fun s (hs : Held c s ∧ s.inUse c ≤ c.maxNumSta) => hs.1.law hs.2) ?_
    ⟨held_initial, inUse_initial.le.trans (Nat.zero_le _)⟩ hrun
  rintro s e s' ⟨hheld, hlimit⟩ hstep
  obtain ⟨hheld', hiff⟩ := step_law hheld hlimit hstep
  exact ⟨⟨fun hlaw => hiff.mp hlaw.limit, fun hok => hheld'.law (hiff.mpr hok)⟩,
    fun hok => ⟨hheld', hiff.mpr hok⟩⟩

theorem aids_kept :
    ∃ t, Transition.run (step ⟨32, 32⟩) (initial : StaPriv ℕ)
      [.alloc 1, .alloc 2, .free 1 true, .config true (some 5), .alloc 3] = some t ∧
        AidLaw ⟨32, 32⟩ t := by
  obtain ⟨t, ht, -⟩ := Transition.exists_run_of_any (P := fun _ => True)
    (show (Transition.run (step ⟨32, 32⟩) (initial : StaPriv ℕ)
      [.alloc 1, .alloc 2, .free 1 true, .config true (some 5), .alloc 3]).any
        (fun _ => decide True) = true by decide)
  exact ⟨t, ht, (aids_iff ⟨32, 32⟩ _ t ht).mpr (by decide) _ t (List.prefix_refl _) ht⟩

/-- With round robin a second station gets an id under a limit of one. -/
theorem not_aids :
    ¬∀ (c : AidLimits) (es : List (Ev ℕ)) (t : StaPriv ℕ),
      Transition.run (step c) initial es = some t → AidLaw c t := by
  intro h
  obtain ⟨t, ht, hmany⟩ := Transition.exists_run_of_any
    (P := fun t => ¬StaPriv.inUse ⟨32, 1⟩ t ≤ 1)
    (show (Transition.run (step ⟨32, 1⟩) (initial : StaPriv ℕ)
      [.config true none, .alloc 1, .alloc 2]).any
        (fun t => decide (¬t.inUse ⟨32, 1⟩ ≤ 1)) = true by decide)
  exact hmany (h ⟨32, 1⟩ _ t ht).limit

end Rtl88x2eu.Sta
