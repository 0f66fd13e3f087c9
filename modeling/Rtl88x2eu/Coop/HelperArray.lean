import Mathlib.Data.List.Induction
import Mathlib.Data.List.Nodup
import Rtl88x2eu.Coop.GroupState

/-!
# The arrays of the helpers

`struct cooperative_rx_group` keeps its helpers in two parallel arrays and a counter, which the
receive path of the helpers reads without a lock. Pairing and removal edit them in place: a helper
that leaves makes those behind it move down. The operations of `Coop.Group` work on a list of
helpers instead; here they are shown to be what the arrays do.

## Main definitions

* `HelperGroup`
* `setPrimary`, `addHelper`, `removeHelper`, `removeAdapter`: the operations on them
* `Refines`, `HelperList`

## Main results

* `removeHelper_refines`: moving entries down erases a member of the list
* `step_refines`: each operation does what it does on the list
* `helperList_run`: the shape over all runs, and what a removal does to it
-/

namespace Rtl88x2eu.Coop.HelperArray

/-! ## The arrays -/

/-- The fields of `struct cooperative_rx_group` that pairing is about; `δ` are the devices. -/
structure HelperGroup (δ : Type*) where
  state : CoopState := .idle
  primary : Option AdapterId := none
  primaryDvobj : Option δ := none
  helpers : ℕ → Option AdapterId := fun _ => none
  helperDvobjs : ℕ → Option δ := fun _ => none
  numHelpers : ℤ := 0
  stats : Stat → BitVec 32 := fun _ => 0

variable {δ : Type*}

def HelperGroup.count (c : HelperGroup δ) (x : Stat) : HelperGroup δ :=
  { c with stats := Function.update c.stats x (c.stats x + 1) }

/-- Both entries of an index are written. -/
def HelperGroup.set (c : HelperGroup δ) (i : ℕ) (a : Option AdapterId) (d : Option δ) :
    HelperGroup δ :=
  { c with
    helpers := Function.update c.helpers i a
    helperDvobjs := Function.update c.helperDvobjs i d }

/-- The search for an adapter from the index `i` on, over `n` entries. -/
def HelperGroup.search (c : HelperGroup δ) (a : AdapterId) : ℕ → ℕ → Option ℕ
  | _, 0 => none
  | i, n + 1 => if c.helpers i = some a then some i else c.search a (i + 1) n

/-- The loop that moves `n` entries down, to the index `i` on. -/
def HelperGroup.shiftDown (c : HelperGroup δ) (i : ℕ) : ℕ → HelperGroup δ
  | 0 => c
  | n + 1 => (c.set i (c.helpers (i + 1)) (c.helperDvobjs (i + 1))).shiftDown (i + 1) n

def HelperGroup.removeAt (c : HelperGroup δ) (i : ℕ) : HelperGroup δ :=
  let n := c.numHelpers.toNat
  let c := (c.shiftDown i (n - 1 - i)).set (n - 1) none none
  ({ c with numHelpers := c.numHelpers - 1 } : HelperGroup δ).count .unpairEvents

def HelperGroup.fallBack (c : HelperGroup δ) : HelperGroup δ :=
  if c.numHelpers = 0 ∧ c.state = .active then
    ({ c with state := .idle } : HelperGroup δ).count .fallbackEvents
  else c

section Operations

variable (dvobj : AdapterId → δ) (c : HelperGroup δ) (a : AdapterId)

def setPrimary : Option Errno × HelperGroup δ :=
  if c.primary ≠ none ∧ c.primary ≠ some a then (some .ebusy, c)
  else
    (none, { c with
      primary := some a
      primaryDvobj := some (dvobj a)
      state := if c.state = .disabled then .idle else c.state })

def addHelper : Option Errno × HelperGroup δ :=
  if c.primary = none then (some .einval, c)
  else if (coopMaxHelpers : ℤ) ≤ c.numHelpers then (some .enospc, c)
  else
    match c.search a 0 c.numHelpers.toNat with
    | some _ => (none, c)
    | none =>
      let c := c.set c.numHelpers.toNat (some a) (some (dvobj a))
      let c : HelperGroup δ := { c with
        numHelpers := c.numHelpers + 1
        state := if c.state = .idle then .binding else c.state }
      (none, c.count .pairEvents)

def removeHelper : Option Errno × HelperGroup δ :=
  match c.search a 0 c.numHelpers.toNat with
  | none => (some .enoent, c)
  | some i => (none, (c.removeAt i).fallBack)

/-- The last section of `rtw_coop_rx_remove_adapter`. -/
def tearDown : HelperGroup δ :=
  ({ c with
    primary := none
    primaryDvobj := none
    numHelpers := 0
    helpers := fun i => if i < coopMaxHelpers then none else c.helpers i
    helperDvobjs := fun i => if i < coopMaxHelpers then none else c.helperDvobjs i
    state := .idle } : HelperGroup δ).count .fallbackEvents

def removeAdapter : HelperGroup δ :=
  let c := (removeHelper c a).2
  if c.primary = some a then tearDown c else c

end Operations

/-- The calls on any adapters. The last section of `rtw_coop_rx_remove_adapter` takes the lock anew,
so that other calls may come before it. -/
inductive Call
  | setPrimary (a : AdapterId)
  | addHelper (a : AdapterId)
  | removeHelper (a : AdapterId)
  | removeAdapter (a : AdapterId)
  | tearDown

def step (dvobj : AdapterId → δ) (c : HelperGroup δ) : Call → HelperGroup δ
  | .setPrimary a => (setPrimary dvobj c a).2
  | .addHelper a => (addHelper dvobj c a).2
  | .removeHelper a => (removeHelper c a).2
  | .removeAdapter a => removeAdapter c a
  | .tearDown => tearDown c

/-! ## The list in the arrays -/

/-- An array holds a list, and `NULL` behind it. -/
def Holds {β : Type*} (f : ℕ → Option β) (hs : List β) : Prop :=
  ∀ i < coopMaxHelpers, f i = hs[i]?

/-- **The arrays hold the list of the group.** -/
structure Refines (dvobj : AdapterId → δ) (c : HelperGroup δ) (g : Group) : Prop where
  state : c.state = g.state
  primary : c.primary = g.primary
  primaryDvobj : c.primaryDvobj = g.primary.map dvobj
  numHelpers : c.numHelpers = g.helpers.length
  helpers : Holds c.helpers g.helpers
  helperDvobjs : Holds c.helperDvobjs (g.helpers.map dvobj)
  stats : c.stats = g.stats

structure WellFormed (g : Group) : Prop where
  length_le : g.helpers.length ≤ coopMaxHelpers
  nodup : g.helpers.Nodup
  primary : g.helpers ≠ [] → g.primary ≠ none

def listStep (g : Group) : Call → Group
  | .setPrimary a => g.setPrimary a
  | .addHelper a => if g.admits a then g.join a else g
  | .removeHelper a => if a ∈ g.helpers then g.dropHelper a else g
  | .removeAdapter a =>
    let g := if a ∈ g.helpers then g.dropHelper a else g
    if g.primary = some a then g.clear else g
  | .tearDown => g.clear

section Loops

variable {c : HelperGroup δ} {a : AdapterId} {i n : ℕ}

theorem search_eq {hs : List AdapterId} (h : ∀ k < hs.length, c.helpers (i + k) = hs[k]?) :
    c.search a i hs.length = (hs.idxOf? a).map (i + ·) := by
  induction hs generalizing i with
  | nil => rfl
  | cons b hs ih =>
    have hb : c.helpers i = some b := h 0 (Nat.succ_pos _)
    have hrest : ∀ k < hs.length, c.helpers (i + 1 + k) = hs[k]? := by
      intro k hk
      rw [Nat.add_right_comm, Nat.add_assoc]
      exact h (k + 1) (Nat.succ_lt_succ hk)
    rw [List.length_cons, HelperGroup.search, hb, List.idxOf?_cons, ih hrest]
    by_cases hba : b = a
    · simp [hba]
    · rw [if_neg (by simpa using hba), if_neg (by simpa using hba), Option.map_map]
      congr 1
      funext k
      simp only [Function.comp_apply]
      omega

/-- The same loop on one array. -/
def moveDown {α : Type*} (f : ℕ → α) (i : ℕ) : ℕ → ℕ → α
  | 0 => f
  | n + 1 => moveDown (Function.update f i (f (i + 1))) (i + 1) n

theorem moveDown_apply {α : Type*} (f : ℕ → α) (i n j : ℕ) :
    moveDown f i n j = if i ≤ j ∧ j < i + n then f (j + 1) else f j := by
  induction n generalizing f i with
  | zero => rw [if_neg (by omega), moveDown]
  | succ n ih =>
    rw [moveDown, ih]
    by_cases hj : j = i
    · subst hj
      rw [if_neg (by omega), if_pos (by omega), Function.update_self]
    · rw [Function.update_of_ne hj]
      by_cases hin : i + 1 ≤ j ∧ j < i + 1 + n
      · rw [if_pos hin, if_pos (by omega), Function.update_of_ne (by omega)]
      · rw [if_neg hin, if_neg (by omega)]

/-- The loop moves the entries of both arrays, and writes nothing else. -/
theorem shiftDown_eq (c : HelperGroup δ) (i n : ℕ) :
    c.shiftDown i n = { c with
      helpers := moveDown c.helpers i n
      helperDvobjs := moveDown c.helperDvobjs i n } := by
  induction n generalizing c i with
  | zero => rfl
  | succ n ih =>
    rw [HelperGroup.shiftDown, ih]
    rfl

variable {β : Type*} {f : ℕ → Option β} {hs : List β}

theorem Holds.push (h : Holds f hs) (b : β) :
    Holds (Function.update f hs.length (some b)) (hs ++ [b]) := by
  intro i hi
  by_cases hlast : i = hs.length
  · subst hlast
    rw [Function.update_self, List.getElem?_concat_length]
  · rw [Function.update_of_ne hlast, h i hi]
    by_cases hlt : i < hs.length
    · rw [List.getElem?_append_left hlt]
    · rw [List.getElem?_eq_none (by omega), List.getElem?_eq_none]
      rw [List.length_append, List.length_singleton]
      omega

theorem Holds.eraseIdx (h : Holds f hs) (hle : hs.length ≤ coopMaxHelpers) (hi : i < hs.length) :
    Holds (Function.update (moveDown f i (hs.length - 1 - i)) (hs.length - 1) none)
      (hs.eraseIdx i) := by
  intro j hj
  rw [List.getElem?_eraseIdx]
  by_cases hlast : j = hs.length - 1
  · subst hlast
    rw [Function.update_self, if_neg (by omega), List.getElem?_eq_none (by omega)]
  rw [Function.update_of_ne hlast, moveDown_apply]
  by_cases hmoved : i ≤ j ∧ j < i + (hs.length - 1 - i)
  · rw [if_pos hmoved, if_neg (by omega)]
    exact h (j + 1) (by omega)
  rw [if_neg hmoved, h j hj]
  by_cases hbefore : j < i
  · rw [if_pos hbefore]
  · rw [if_neg hbefore, List.getElem?_eq_none (by omega), List.getElem?_eq_none (by omega)]

end Loops

/-! ## The operations refine those on the list -/

section Refinement

variable {dvobj : AdapterId → δ} {c : HelperGroup δ} {g : Group} {a : AdapterId}

theorem init_refines (dvobj : AdapterId → δ) : Refines dvobj ({} : HelperGroup δ) {} :=
  ⟨rfl, rfl, rfl, rfl, fun _ _ => rfl, fun _ _ => rfl, rfl⟩

theorem setPrimary_refines (h : Refines dvobj c g) (a : AdapterId) :
    Refines dvobj (setPrimary dvobj c a).2 (g.setPrimary a) := by
  unfold setPrimary Group.setPrimary
  rw [h.primary, h.state]
  split_ifs
  · exact h
  · exact ⟨rfl, rfl, rfl, h.numHelpers, h.helpers, h.helperDvobjs, h.stats⟩
  · exact ⟨rfl, rfl, rfl, h.numHelpers, h.helpers, h.helperDvobjs, h.stats⟩

theorem Refines.toNat (h : Refines dvobj c g) : c.numHelpers.toNat = g.helpers.length := by
  rw [h.numHelpers, Int.toNat_natCast]

/-- The search over all helpers. -/
theorem Refines.search (h : Refines dvobj c g) (hle : g.helpers.length ≤ coopMaxHelpers) :
    c.search a 0 c.numHelpers.toNat = g.helpers.idxOf? a := by
  rw [h.toNat, search_eq]
  · simp
  · intro k hk
    rw [Nat.zero_add]
    exact h.helpers k (hk.trans_le hle)

theorem addHelper_refines (h : Refines dvobj c g) (hle : g.helpers.length ≤ coopMaxHelpers)
    (a : AdapterId) :
    Refines dvobj (addHelper dvobj c a).2 (if g.admits a then g.join a else g) := by
  unfold addHelper
  rw [h.primary, h.search hle]
  by_cases hnone : g.primary = none
  · have hadmits : g.admits a = false := by simp [Group.admits, hnone]
    rw [if_pos hnone, hadmits]
    exact h
  rw [if_neg hnone]
  by_cases hfull : (coopMaxHelpers : ℤ) ≤ c.numHelpers
  · have hadmits : g.admits a = false := by
      rw [h.numHelpers, Nat.cast_le] at hfull
      simp [Group.admits, not_lt.mpr hfull]
    rw [if_pos hfull, hadmits]
    exact h
  rw [if_neg hfull]
  rw [h.numHelpers, Nat.cast_le, not_le] at hfull
  cases hfind : g.helpers.idxOf? a with
  | some i =>
    have hmem : a ∈ g.helpers := List.isSome_idxOf?.mp (hfind ▸ rfl)
    have hadmits : g.admits a = false := by simp [Group.admits, hmem]
    rw [hadmits]
    exact h
  | none =>
    have hnot : a ∉ g.helpers := List.idxOf?_eq_none_iff.mp hfind
    have hadmits : g.admits a = true := by
      simp [Group.admits, Option.isSome_iff_ne_none, hnone, hfull, hnot]
    rw [hadmits, if_pos rfl]
    refine ⟨?_, h.primary, h.primaryDvobj, ?_, ?_, ?_, ?_⟩
    · show (if c.state = .idle then CoopState.binding else c.state) = _
      rw [h.state]
      rfl
    · show c.numHelpers + 1 = ((g.helpers ++ [a]).length : ℤ)
      rw [h.numHelpers, List.length_append]
      rfl
    · show Holds (Function.update c.helpers c.numHelpers.toNat (some a)) _
      rw [h.toNat]
      exact h.helpers.push a
    · show Holds (Function.update c.helperDvobjs c.numHelpers.toNat (some (dvobj a)))
        ((g.helpers ++ [a]).map dvobj)
      rw [h.toNat, List.map_append, ← List.length_map (f := dvobj)]
      exact h.helperDvobjs.push (dvobj a)
    · show Function.update c.stats .pairEvents (c.stats .pairEvents + 1) =
        Function.update g.stats .pairEvents (g.stats .pairEvents + 1)
      rw [h.stats]

theorem removeAt_refines {i : ℕ} (h : Refines dvobj c g)
    (hle : g.helpers.length ≤ coopMaxHelpers) (hfind : g.helpers.idxOf? a = some i) :
    Refines dvobj (c.removeAt i)
      (({ g with helpers := g.helpers.erase a } : Group).count .unpairEvents) := by
  obtain ⟨hi, -, -⟩ := List.idxOf?_eq_some_iff.mp hfind
  have herase : g.helpers.erase a = g.helpers.eraseIdx i := by
    rw [List.erase_eq_eraseIdx, hfind]
  unfold HelperGroup.removeAt
  dsimp only
  rw [shiftDown_eq, h.toNat, herase]
  refine ⟨h.state, h.primary, h.primaryDvobj, ?_, ?_, ?_, ?_⟩
  · show c.numHelpers - 1 = ((g.helpers.eraseIdx i).length : ℤ)
    rw [h.numHelpers, List.length_eraseIdx_of_lt hi]
    omega
  · exact h.helpers.eraseIdx hle hi
  · show Holds _ ((g.helpers.eraseIdx i).map dvobj)
    have hdvobjs := h.helperDvobjs.eraseIdx (i := i) (by simpa using hle) (by simpa using hi)
    rwa [List.length_map, List.eraseIdx_map] at hdvobjs
  · show Function.update c.stats .unpairEvents (c.stats .unpairEvents + 1) =
      Function.update g.stats .unpairEvents (g.stats .unpairEvents + 1)
    rw [h.stats]

theorem fallBack_refines (h : Refines dvobj c g) :
    Refines dvobj c.fallBack
      (if g.helpers = [] ∧ g.state = .active then
        ({ g with state := .idle } : Group).count .fallbackEvents
      else g) := by
  have hiff : c.numHelpers = 0 ∧ c.state = .active ↔ g.helpers = [] ∧ g.state = .active := by
    rw [h.numHelpers, h.state, Nat.cast_eq_zero, List.length_eq_zero_iff]
  unfold HelperGroup.fallBack
  by_cases hlast : g.helpers = [] ∧ g.state = .active
  · rw [if_pos hlast, if_pos (hiff.mpr hlast)]
    refine ⟨rfl, h.primary, h.primaryDvobj, h.numHelpers, h.helpers, h.helperDvobjs, ?_⟩
    show Function.update c.stats .fallbackEvents (c.stats .fallbackEvents + 1) =
      Function.update g.stats .fallbackEvents (g.stats .fallbackEvents + 1)
    rw [h.stats]
  · rw [if_neg hlast, if_neg (mt hiff.mp hlast)]
    exact h

/-- **Moving entries down erases a member of the list.** -/
theorem removeHelper_refines (h : Refines dvobj c g) (hle : g.helpers.length ≤ coopMaxHelpers)
    (a : AdapterId) :
    Refines dvobj (removeHelper c a).2 (if a ∈ g.helpers then g.dropHelper a else g) := by
  unfold removeHelper
  rw [h.search hle]
  cases hfind : g.helpers.idxOf? a with
  | none =>
    rw [if_neg (List.idxOf?_eq_none_iff.mp hfind)]
    exact h
  | some i =>
    rw [if_pos (List.isSome_idxOf?.mp (hfind ▸ rfl))]
    exact fallBack_refines (removeAt_refines h hle hfind)

theorem tearDown_refines (h : Refines dvobj c g) : Refines dvobj (tearDown c) g.clear := by
  refine ⟨rfl, rfl, rfl, rfl, fun i hi => ?_, fun i hi => ?_, ?_⟩
  · exact if_pos hi
  · exact if_pos hi
  · show Function.update c.stats .fallbackEvents (c.stats .fallbackEvents + 1) =
      Function.update g.stats .fallbackEvents (g.stats .fallbackEvents + 1)
    rw [h.stats]

/-- **Each operation does what it does on the list.** -/
theorem step_refines (h : Refines dvobj c g) (hg : WellFormed g) (e : Call) :
    Refines dvobj (step dvobj c e) (listStep g e) := by
  cases e with
  | setPrimary a => exact setPrimary_refines h a
  | addHelper a => exact addHelper_refines h hg.length_le a
  | removeHelper a => exact removeHelper_refines h hg.length_le a
  | removeAdapter a =>
    have hremove := removeHelper_refines h hg.length_le a
    unfold step removeAdapter listStep
    dsimp only
    generalize (if a ∈ g.helpers then g.dropHelper a else g) = g' at hremove ⊢
    rw [hremove.primary]
    split_ifs
    · exact tearDown_refines hremove
    · exact hremove
  | tearDown => exact tearDown_refines h

theorem WellFormed.of_sublist {g' : Group} (h : WellFormed g) (hsub : g'.helpers.Sublist g.helpers)
    (hprimary : g'.helpers ≠ [] → g'.primary = g.primary) : WellFormed g' := by
  refine ⟨hsub.length_le.trans h.length_le, h.nodup.sublist hsub, fun hne => ?_⟩
  rw [hprimary hne]
  refine h.primary fun hnil => hne ?_
  rw [hnil] at hsub
  exact List.sublist_nil.mp hsub

theorem WellFormed.dropHelper (h : WellFormed g) (a : AdapterId) :
    WellFormed (if a ∈ g.helpers then g.dropHelper a else g) := by
  split_ifs
  · refine h.of_sublist ?_ fun _ => dropHelper_primary g a
    rw [dropHelper_helpers]
    exact List.erase_sublist
  · exact h

theorem WellFormed.clear (g : Group) : WellFormed g.clear :=
  ⟨Nat.zero_le _, List.nodup_nil, fun h => absurd rfl h⟩

theorem WellFormed.join (h : WellFormed g) (hadmits : g.admits a) : WellFormed (g.join a) := by
  unfold Group.admits at hadmits
  simp only [Bool.and_eq_true, decide_eq_true_eq, Bool.not_eq_true', List.elem_eq_mem,
    decide_eq_false_iff_not] at hadmits
  obtain ⟨⟨hprimary, hlt⟩, hnot⟩ := hadmits
  refine ⟨?_, ?_, fun _ => ?_⟩
  · show (g.helpers ++ [a]).length ≤ _
    rw [List.length_append, List.length_singleton]
    exact hlt
  · refine List.nodup_append.mpr ⟨h.nodup, List.nodup_singleton a, fun b hb b' hb' heq => ?_⟩
    rw [List.mem_singleton.mp hb'] at heq
    exact hnot (heq ▸ hb)
  · exact Option.isSome_iff_ne_none.mp hprimary

theorem WellFormed.listStep (h : WellFormed g) (e : Call) : WellFormed (listStep g e) := by
  cases e with
  | setPrimary a =>
    unfold HelperArray.listStep Group.setPrimary
    dsimp only
    split_ifs
    · exact h
    · exact ⟨h.length_le, h.nodup, fun _ => Option.some_ne_none a⟩
    · exact ⟨h.length_le, h.nodup, fun _ => Option.some_ne_none a⟩
  | addHelper a =>
    unfold HelperArray.listStep
    dsimp only
    split_ifs with hadmits
    · exact h.join hadmits
    · exact h
  | removeHelper a => exact h.dropHelper a
  | removeAdapter a =>
    have hdrop := h.dropHelper a
    unfold HelperArray.listStep
    dsimp only
    generalize (if a ∈ g.helpers then g.dropHelper a else g) = g' at hdrop ⊢
    split_ifs
    · exact WellFormed.clear g'
    · exact hdrop
  | tearDown => exact WellFormed.clear g

theorem run_refines (dvobj : AdapterId → δ) (es : List Call) :
    ∃ g, WellFormed g ∧ Refines dvobj (es.foldl (step dvobj) {}) g := by
  have hrun (c : HelperGroup δ) (g : Group) (hg : WellFormed g) (h : Refines dvobj c g) :
      ∃ g, WellFormed g ∧ Refines dvobj (es.foldl (step dvobj) c) g := by
    induction es generalizing c g with
    | nil => exact ⟨g, hg, h⟩
    | cons e es ih => exact ih _ _ (hg.listStep e) (step_refines h hg e)
  exact hrun {} {} ⟨Nat.zero_le _, List.nodup_nil, fun h => absurd rfl h⟩ (init_refines dvobj)

end Refinement

/-- **The shape that the receive path trusts.** -/
structure HelperList (dvobj : AdapterId → δ) (c : HelperGroup δ) : Prop where
  nonneg : 0 ≤ c.numHelpers
  le : c.numHelpers ≤ coopMaxHelpers
  member : ∀ i : ℕ, i < c.numHelpers →
    ∃ a, c.helpers i = some a ∧ c.helperDvobjs i = some (dvobj a)
  distinct : ∀ i j : ℕ, i < j → j < c.numHelpers → c.helpers i ≠ c.helpers j
  rest : ∀ i < coopMaxHelpers, c.numHelpers ≤ i → c.helpers i = none ∧ c.helperDvobjs i = none
  primary : 0 < c.numHelpers → c.primary ≠ none

def HelperGroup.members (c : HelperGroup δ) : List AdapterId :=
  (List.range c.numHelpers.toNat).filterMap c.helpers

section Shape

variable {dvobj : AdapterId → δ} {c : HelperGroup δ} {g : Group}

theorem Refines.helperList (h : Refines dvobj c g) (hg : WellFormed g) : HelperList dvobj c := by
  have hle := hg.length_le
  refine ⟨?_, ?_, fun i hi => ?_, fun i j hij hj => ?_, fun i hi hrest => ?_, fun hpos => ?_⟩
  · rw [h.numHelpers]
    exact Int.natCast_nonneg _
  · rw [h.numHelpers]
    exact_mod_cast hle
  · rw [h.numHelpers, Nat.cast_lt] at hi
    refine ⟨g.helpers[i], ?_, ?_⟩
    · rw [h.helpers i (hi.trans_le hle), List.getElem?_eq_getElem hi]
    · rw [h.helperDvobjs i (hi.trans_le hle), List.getElem?_map, List.getElem?_eq_getElem hi]
      rfl
  · rw [h.numHelpers, Nat.cast_lt] at hj
    rw [h.helpers i (by omega), h.helpers j (by omega)]
    intro heq
    exact hij.ne ((List.getElem?_inj (hij.trans hj) hg.nodup).mp heq)
  · rw [h.numHelpers, Nat.cast_le] at hrest
    constructor
    · rw [h.helpers i hi, List.getElem?_eq_none hrest]
    · rw [h.helperDvobjs i hi, List.getElem?_eq_none (by simpa using hrest)]
  · rw [h.numHelpers] at hpos
    rw [h.primary]
    refine hg.primary fun hnil => ?_
    rw [hnil] at hpos
    exact absurd hpos (lt_irrefl 0)

theorem filterMap_getElem?_range {β : Type*} (hs : List β) :
    ((List.range hs.length).filterMap fun i => hs[i]?) = hs := by
  induction hs using List.reverseRecOn with
  | nil => rfl
  | append_singleton hs b ih =>
    rw [List.length_append, List.length_singleton, List.range_succ, List.filterMap_append]
    congr 1
    · conv_rhs => rw [← ih]
      refine List.filterMap_congr fun i hi => ?_
      rw [List.getElem?_append_left (List.mem_range.mp hi)]
    · simp

theorem Refines.members (h : Refines dvobj c g) (hg : WellFormed g) : c.members = g.helpers := by
  unfold HelperGroup.members
  rw [h.toNat]
  conv_rhs => rw [← filterMap_getElem?_range g.helpers]
  refine List.filterMap_congr fun i hi => ?_
  exact h.helpers i ((List.mem_range.mp hi).trans_le hg.length_le)

theorem Refines.members_removeHelper (h : Refines dvobj c g) (hg : WellFormed g) (a : AdapterId) :
    (removeHelper c a).2.members = c.members.erase a ∧
      (a ∉ c.members → (removeHelper c a).2 = c) := by
  rw [h.members hg]
  constructor
  · rw [(removeHelper_refines h hg.length_le a).members (hg.dropHelper a)]
    split_ifs with hmem
    · exact dropHelper_helpers g a
    · exact (List.erase_of_not_mem hmem).symm
  · intro hnot
    unfold removeHelper
    rw [h.search hg.length_le, List.idxOf?_eq_none_iff.mpr hnot]

/-- **The shape over all runs** of pairing and removal, and what a removal does to it: a member
goes, and the others keep their order. -/
theorem helperList_run (dvobj : AdapterId → δ) (es : List Call) :
    let c := es.foldl (step dvobj) ({} : HelperGroup δ)
    HelperList dvobj c ∧ c.members.Nodup ∧ ∀ a,
      (removeHelper c a).2.members = c.members.erase a ∧
        (a ∉ c.members → (removeHelper c a).2 = c) := by
  intro c
  obtain ⟨g, hg, h⟩ := run_refines dvobj es
  refine ⟨h.helperList hg, ?_, h.members_removeHelper hg⟩
  rw [h.members hg]
  exact hg.nodup

end Shape

end Rtl88x2eu.Coop.HelperArray
