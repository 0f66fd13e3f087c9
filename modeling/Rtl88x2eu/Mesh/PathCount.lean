import Rtl88x2eu.Lib.CountedTable
import Rtl88x2eu.Lib.Transition
import Rtl88x2eu.Mesh.PathTable

/-!
# The counters of the path tables

The mesh path table, the WDS path table and the records of group addressed frames of `rtw_wds.c`
each have a counter, which is raised before there is an entry. The table of mesh proxies has none,
but shares the deletion of the mesh paths.

## Main definitions

* `MeshTblPath`, `WdsPath`, `WdsGptr`: the entries, as far as they are looked at
* `PathTables`
* `TableEvent`, `PathTables.apply`: the operations
* `TableEvent.Adds`

## Main results

* `pathTables_exact_iff`: the counters are right all along a run exactly if its operations add what
  they count
-/

namespace Rtl88x2eu.Mesh

open CountedTable

/-! ## The tables -/

def rtwWdsMaxPaths : ℤ := 1024

/-- `struct rtw_mesh_path`, in the table of paths or of proxies. -/
structure MeshTblPath where
  dst : MacAddr
  nextHop : Option MacAddr := none
  mpp : MacAddr := .zero
  resolving : Bool := false
  fixed : Bool := false
  expTime : ℕ
deriving DecidableEq

structure WdsPath where
  dst : MacAddr
  nextHop : MacAddr
  lastUpdate : ℕ
deriving DecidableEq

structure WdsGptr where
  src : MacAddr
  lastUpdate : ℕ
deriving DecidableEq

/-- The tables with their counters. -/
structure PathTables where
  /-- `adapter_mac_addr` -/
  macAddr : MacAddr
  /-- `HZ` -/
  hz : ℕ := 100
  now : ℕ := 0
  meshPaths : CountedList MeshTblPath := {}
  mppPaths : List MeshTblPath := []
  wdsPaths : CountedList WdsPath := {}
  wdsGptRecords : CountedList WdsGptr := {}

inductive AddError
  | enotsupp | enospc | enomem | einsert
deriving DecidableEq

/-- Whether `rtw_zmalloc` has memory, and whether `rtw_rhashtable_lookup_insert_fast` takes an entry
with a new key. -/
structure AddEnv where
  alloc : Bool := true
  insert : Bool := true

section Additions

variable {α : Type*} (key : α → MacAddr)

/-- What the additions have in common, from `ATOMIC_INC_UNLESS` on. -/
def countedAdd (max : ℤ) (t : CountedList α) (x : α) (env : AddEnv) :
    Option AddError × CountedList α :=
  if t.num = max then (some .enospc, t)
  else
    let r := t.add key x env.alloc env.insert
    (if r.1 then none else if env.alloc then some .einsert else some .enomem, r.2)

end Additions

namespace PathTables

variable (s : PathTables)

def rtwMeshPathAdd (dst : MacAddr) (env : AddEnv) : Option AddError × PathTables :=
  if dst = s.macAddr ∨ dst.isMcast then (some .enotsupp, s)
  else
    let r := countedAdd MeshTblPath.dst rtwMeshMaxMpaths s.meshPaths { dst, expTime := s.now } env
    (r.1, { s with meshPaths := r.2 })

def rtwMppPathAdd (dst mpp : MacAddr) (env : AddEnv) : Option AddError × PathTables :=
  if dst = s.macAddr ∨ dst.isMcast then (some .enotsupp, s)
  else if !env.alloc then (some .enomem, s)
  else if (lookup MeshTblPath.dst s.mppPaths dst).isSome ∨ !env.insert then (some .einsert, s)
  else (none, { s with mppPaths := { dst, mpp, expTime := s.now } :: s.mppPaths })

def rtwWdsPathAdd (dst nextHop : MacAddr) (env : AddEnv) : Option AddError × PathTables :=
  if dst = s.macAddr ∨ dst.isMcast then (some .enotsupp, s)
  else
    let r := countedAdd WdsPath.dst rtwWdsMaxPaths s.wdsPaths ⟨dst, nextHop, s.now⟩ env
    let assign (x : WdsPath) : WdsPath := if x.dst = dst then { x with nextHop } else x
    (r.1, { s with
      wdsPaths := if r.1.isNone then { r.2 with entries := r.2.entries.map assign } else r.2 })

def rtwWdsGptrAdd (src : MacAddr) (env : AddEnv) : Option AddError × PathTables :=
  let r := countedAdd WdsGptr.src rtwWdsMaxPaths s.wdsGptRecords ⟨src, s.now⟩ env
  (r.1, { s with wdsGptRecords := r.2 })

def rtwTxWdsGptrUpdate (src : MacAddr) (env : AddEnv) : Option AddError × PathTables :=
  if (lookup WdsGptr.src s.wdsGptRecords.entries src).isNone then s.rtwWdsGptrAdd src env
  else
    let touch (x : WdsGptr) : WdsGptr := if x.src = src then { x with lastUpdate := s.now } else x
    (none, { s with
      wdsGptRecords := { s.wdsGptRecords with
        entries := s.wdsGptRecords.entries.map touch } })

def walkPaths (p : MeshTblPath → Bool) (ks : List MacAddr) : PathTables :=
  { s with meshPaths := s.meshPaths.walk MeshTblPath.dst p ks }

def walkMpps (p : MeshTblPath → Bool) (ks : List MacAddr) : PathTables :=
  let r := walk MeshTblPath.dst p ks s.mppPaths
  { s with
    mppPaths := r.1
    meshPaths := { s.meshPaths with num := s.meshPaths.num - r.2 } }

def walkWds (p : WdsPath → Bool) (ks : List MacAddr) : PathTables :=
  { s with wdsPaths := s.wdsPaths.walk WdsPath.dst p ks }

def walkGptrs (p : WdsGptr → Bool) (ks : List MacAddr) : PathTables :=
  { s with wdsGptRecords := s.wdsGptRecords.walk WdsGptr.src p ks }

def pathExpired (p : MeshTblPath) : Bool :=
  !p.resolving && !p.fixed && p.expTime + 600 * s.hz < s.now

end PathTables

/-- The operations. A walk gives the order in which a table is gone through, as far as it comes. -/
inductive TableEvent
  | meshPathAdd (dst : MacAddr) (env : AddEnv)
  | mppPathAdd (dst mpp : MacAddr) (env : AddEnv)
  /-- `rtw_mesh_path_del` -/
  | meshPathDel (addr : MacAddr) (mpps : List MacAddr)
  | meshFlushByNexthop (sta : MacAddr) (paths : List MacAddr)
  /-- `rtw_mesh_path_flush_by_iface` -/
  | meshFlushByIface (paths mpps : List MacAddr)
  /-- `rtw_mesh_path_expire` -/
  | meshExpire (paths mpps : List MacAddr)
  | wdsPathAdd (dst nextHop : MacAddr) (env : AddEnv)
  /-- `rtw_wds_path_del` -/
  | wdsPathDel (addr : MacAddr)
  | wdsFlushByNexthop (sta : MacAddr) (paths : List MacAddr)
  | wdsFlushByIface (paths : List MacAddr)
  | wdsExpire (paths : List MacAddr)
  /-- `rtw_tx_wds_gptr_update` -/
  | gptrUpdate (src : MacAddr) (env : AddEnv)
  /-- `rtw_wds_gptr_expire` -/
  | gptrExpire (records : List MacAddr)
  | change (f : MeshTblPath → MeshTblPath) (g : WdsPath → WdsPath)
  | elapse (ticks : ℕ)

def PathTables.apply (s : PathTables) : TableEvent → Option AddError × PathTables
  | .meshPathAdd dst env => s.rtwMeshPathAdd dst env
  | .mppPathAdd dst mpp env => s.rtwMppPathAdd dst mpp env
  | .meshPathDel addr mpps =>
    (none, (s.walkMpps (fun p => p.mpp = addr) mpps).walkPaths (fun _ => true) [addr])
  | .meshFlushByNexthop sta paths => (none, s.walkPaths (fun p => p.nextHop = some sta) paths)
  | .meshFlushByIface paths mpps =>
    (none, (s.walkPaths (fun _ => true) paths).walkMpps (fun _ => true) mpps)
  | .meshExpire paths mpps =>
    (none, (s.walkPaths s.pathExpired paths).walkMpps s.pathExpired mpps)
  | .wdsPathAdd dst nextHop env => s.rtwWdsPathAdd dst nextHop env
  | .wdsPathDel addr => (none, s.walkWds (fun _ => true) [addr])
  | .wdsFlushByNexthop sta paths => (none, s.walkWds (fun p => p.nextHop = sta) paths)
  | .wdsFlushByIface paths => (none, s.walkWds (fun _ => true) paths)
  | .wdsExpire paths => (none, s.walkWds (fun p => p.lastUpdate + 600 * s.hz < s.now) paths)
  | .gptrUpdate src env => s.rtwTxWdsGptrUpdate src env
  | .gptrExpire records =>
    (none, s.walkGptrs (fun p => p.lastUpdate + 2 * s.hz < s.now) records)
  | .change f g =>
    (none, { s with
      meshPaths := { s.meshPaths with
        entries := s.meshPaths.entries.map fun p => { f p with dst := p.dst } }
      mppPaths := s.mppPaths.map fun p => { f p with dst := p.dst }
      wdsPaths := { s.wdsPaths with
        entries := s.wdsPaths.entries.map fun p => { g p with dst := p.dst } } })
  | .elapse ticks => (none, { s with now := s.now + ticks })

def PathTables.step (s : PathTables) (e : TableEvent) : Option PathTables := some (s.apply e).2

/-! ## What is to hold -/

/-- Each counter is the number of entries of its table. -/
structure PathTables.Exact (s : PathTables) : Prop where
  mpaths : s.meshPaths.Exact
  wdsPathNum : s.wdsPaths.Exact
  wdsGptRecordNum : s.wdsGptRecords.Exact

/-- No counter exceeds its limit. -/
structure PathTables.Bounded (s : PathTables) : Prop where
  mpaths : s.meshPaths.num ≤ rtwMeshMaxMpaths
  wdsPathNum : s.wdsPaths.num ≤ rtwWdsMaxPaths
  wdsGptRecordNum : s.wdsGptRecords.num ≤ rtwWdsMaxPaths

def TableEvent.Full (s : PathTables) : TableEvent → Prop
  | .meshPathAdd _ _ => (s.meshPaths.entries.length : ℤ) = rtwMeshMaxMpaths
  | .wdsPathAdd _ _ _ => (s.wdsPaths.entries.length : ℤ) = rtwWdsMaxPaths
  | .gptrUpdate _ _ => (s.wdsGptRecords.entries.length : ℤ) = rtwWdsMaxPaths
  | _ => False

/-- The counters are exact, an addition is refused with `-ENOSPC` only if the table is full, and no
table exceeds its maximum. -/
structure PathTables.Right (s : PathTables) : Prop where
  exact : s.Exact
  enospc : ∀ e, (s.apply e).1 = some .enospc → e.Full s
  meshPaths : (s.meshPaths.entries.length : ℤ) ≤ rtwMeshMaxMpaths
  wdsPaths : (s.wdsPaths.entries.length : ℤ) ≤ rtwWdsMaxPaths
  wdsGptRecords : (s.wdsGptRecords.entries.length : ℤ) ≤ rtwWdsMaxPaths

def AddsEntry {α : Type*} (key : α → MacAddr) (max : ℤ) (t : CountedList α) (k : MacAddr)
    (env : AddEnv) : Prop :=
  t.num ≠ max → env.alloc ∧ env.insert ∧ lookup key t.entries k = none

/-- The walk deletes no proxy. -/
def KeepsMpps (s : PathTables) (p : MeshTblPath → Bool) (mpps : List MacAddr) : Prop :=
  ∀ k ∈ mpps, (lookup MeshTblPath.dst s.mppPaths k).any p = false

/-- What an operation needs for the counters to stay right. -/
def TableEvent.Adds (s : PathTables) : TableEvent → Prop
  | .meshPathAdd dst env =>
    ¬(dst = s.macAddr ∨ dst.isMcast) →
      AddsEntry MeshTblPath.dst rtwMeshMaxMpaths s.meshPaths dst env
  | .meshPathDel addr mpps => KeepsMpps s (fun p => p.mpp = addr) mpps
  | .meshFlushByIface _ mpps => KeepsMpps s (fun _ => true) mpps
  | .meshExpire _ mpps => KeepsMpps s s.pathExpired mpps
  | .wdsPathAdd dst _ env =>
    ¬(dst = s.macAddr ∨ dst.isMcast) → AddsEntry WdsPath.dst rtwWdsMaxPaths s.wdsPaths dst env
  | .gptrUpdate src env =>
    lookup WdsGptr.src s.wdsGptRecords.entries src = none →
      AddsEntry WdsGptr.src rtwWdsMaxPaths s.wdsGptRecords src env
  | _ => True

section Additions

variable {α : Type*} {key : α → MacAddr} {max : ℤ} {t : CountedList α} {x : α} {env : AddEnv}

theorem countedAdd_of_full (h : t.num = max) :
    countedAdd key max t x env = (some .enospc, t) :=
  if_pos h

theorem countedAdd_of_room (h : t.num ≠ max) :
    (countedAdd key max t x env).2 = (t.add key x env.alloc env.insert).2 :=
  congrArg Prod.snd (if_neg h)

theorem countedAdd_exact_iff (h : t.Exact) :
    (countedAdd key max t x env).2.Exact ↔ AddsEntry key max t (key x) env := by
  unfold AddsEntry
  by_cases hmax : t.num = max
  · rw [countedAdd_of_full hmax]
    exact iff_of_true h fun hne => absurd hmax hne
  · rw [countedAdd_of_room hmax, CountedList.exact_add_iff h]
    exact (imp_iff_right hmax).symm

theorem countedAdd_num_le (h : t.num ≤ max) : (countedAdd key max t x env).2.num ≤ max := by
  by_cases hmax : t.num = max
  · rwa [countedAdd_of_full hmax]
  · rw [countedAdd_of_room hmax, CountedList.add_num]
    omega

theorem countedAdd_enospc (h : (countedAdd key max t x env).1 = some .enospc) : t.num = max := by
  by_contra hmax
  rw [countedAdd, if_neg hmax] at h
  dsimp only at h
  split_ifs at h <;> cases h

end Additions

section Deletions

variable {s : PathTables} {p : MeshTblPath → Bool} {ks : List MacAddr}

theorem PathTables.exact_walkPaths_iff : (s.walkPaths p ks).Exact ↔ s.Exact :=
  ⟨fun h => ⟨(CountedList.exact_walk_iff _ _ _).1 h.mpaths, h.wdsPathNum, h.wdsGptRecordNum⟩,
    fun h => ⟨(CountedList.exact_walk_iff _ _ _).2 h.mpaths, h.wdsPathNum, h.wdsGptRecordNum⟩⟩

theorem PathTables.Exact.walkMpps_iff (h : s.Exact) :
    (s.walkMpps p ks).Exact ↔ KeepsMpps s p ks := by
  have hmesh := h.mpaths
  have hcount : (s.walkMpps p ks).meshPaths.Exact ↔
      (walk MeshTblPath.dst p ks s.mppPaths).2 = 0 := by
    unfold CountedList.Exact at hmesh ⊢
    show s.meshPaths.num - ((walk MeshTblPath.dst p ks s.mppPaths).2 : ℤ) =
      (s.meshPaths.entries.length : ℤ) ↔ _
    omega
  rw [KeepsMpps, ← walk_eq_zero_iff, ← hcount]
  exact ⟨fun h' => h'.mpaths, fun h' => ⟨h', h.wdsPathNum, h.wdsGptRecordNum⟩⟩

theorem PathTables.Bounded.walkPaths (h : s.Bounded) : (s.walkPaths p ks).Bounded :=
  ⟨(CountedList.walk_num_le _ _ _).trans h.mpaths, h.wdsPathNum, h.wdsGptRecordNum⟩

theorem PathTables.Bounded.walkMpps (h : s.Bounded) : (s.walkMpps p ks).Bounded := by
  refine ⟨?_, h.wdsPathNum, h.wdsGptRecordNum⟩
  have hmesh := h.mpaths
  show s.meshPaths.num - ((walk MeshTblPath.dst p ks s.mppPaths).2 : ℤ) ≤ rtwMeshMaxMpaths
  omega

end Deletions

/-! ## Steps and runs -/

namespace PathTables

variable {s : PathTables}

theorem exact_map {α : Type*} (t : CountedList α) (f : α → α) :
    ({ t with entries := t.entries.map f } : CountedList α).Exact ↔ t.Exact := by
  rw [CountedList.Exact, CountedList.Exact, List.length_map]

/-- What `rtw_wds_path_add` does to the table and its counter, next hops aside. -/
theorem rtwWdsPathAdd_snd {dst : MacAddr} (h : ¬(dst = s.macAddr ∨ dst.isMcast))
    (nextHop : MacAddr) (env : AddEnv) :
    ∃ t : CountedList WdsPath, (s.rtwWdsPathAdd dst nextHop env).2 = { s with wdsPaths := t } ∧
      t.num =
        (countedAdd WdsPath.dst rtwWdsMaxPaths s.wdsPaths ⟨dst, nextHop, s.now⟩ env).2.num ∧
      (t.Exact ↔
        (countedAdd WdsPath.dst rtwWdsMaxPaths s.wdsPaths ⟨dst, nextHop, s.now⟩ env).2.Exact) := by
  refine ⟨_, congrArg Prod.snd (if_neg h), ?_⟩
  dsimp only
  split_ifs
  · exact ⟨rfl, exact_map _ _⟩
  · exact ⟨rfl, Iff.rfl⟩

/-- No counter exceeds its limit after an operation. -/
theorem Bounded.apply (h : s.Bounded) (e : TableEvent) : (s.apply e).2.Bounded := by
  have hwds : ∀ p ks, (s.walkWds p ks).Bounded := fun p ks =>
    ⟨h.mpaths, (CountedList.walk_num_le _ _ _).trans h.wdsPathNum, h.wdsGptRecordNum⟩
  cases e with
  | meshPathAdd dst env =>
    simp only [PathTables.apply, PathTables.rtwMeshPathAdd]
    split_ifs
    · exact h
    · exact ⟨countedAdd_num_le h.mpaths, h.wdsPathNum, h.wdsGptRecordNum⟩
  | mppPathAdd dst mpp env =>
    simp only [PathTables.apply, PathTables.rtwMppPathAdd]
    split_ifs
    · exact h
    · exact h
    · exact h
    · exact ⟨h.mpaths, h.wdsPathNum, h.wdsGptRecordNum⟩
  | meshPathDel addr mpps => exact h.walkMpps.walkPaths
  | meshFlushByNexthop sta paths => exact h.walkPaths
  | meshFlushByIface paths mpps => exact h.walkPaths.walkMpps
  | meshExpire paths mpps => exact h.walkPaths.walkMpps
  | wdsPathAdd dst nextHop env =>
    by_cases hdst : dst = s.macAddr ∨ dst.isMcast
    · simp only [PathTables.apply, PathTables.rtwWdsPathAdd, if_pos hdst]
      exact h
    · obtain ⟨t, ht, hnum, -⟩ := rtwWdsPathAdd_snd hdst nextHop env
      simp only [PathTables.apply, ht]
      exact ⟨h.mpaths, hnum.trans_le (countedAdd_num_le h.wdsPathNum), h.wdsGptRecordNum⟩
  | wdsPathDel addr => exact hwds _ _
  | wdsFlushByNexthop sta paths => exact hwds _ _
  | wdsFlushByIface paths => exact hwds _ _
  | wdsExpire paths => exact hwds _ _
  | gptrUpdate src env =>
    simp only [PathTables.apply, PathTables.rtwTxWdsGptrUpdate, PathTables.rtwWdsGptrAdd]
    split_ifs
    · exact ⟨h.mpaths, h.wdsPathNum, countedAdd_num_le h.wdsGptRecordNum⟩
    · exact ⟨h.mpaths, h.wdsPathNum, h.wdsGptRecordNum⟩
  | gptrExpire records =>
    exact ⟨h.mpaths, h.wdsPathNum, (CountedList.walk_num_le _ _ _).trans h.wdsGptRecordNum⟩
  | change f g => exact ⟨h.mpaths, h.wdsPathNum, h.wdsGptRecordNum⟩
  | elapse ticks => exact ⟨h.mpaths, h.wdsPathNum, h.wdsGptRecordNum⟩

/-- **An operation keeps the counters exact if and only if it adds what it counts.** -/
theorem Exact.apply_iff (h : s.Exact) (e : TableEvent) : (s.apply e).2.Exact ↔ e.Adds s := by
  have hkeep : ∀ t : PathTables, t.meshPaths.Exact → t.wdsPaths.Exact → t.wdsGptRecords.Exact →
      (t.Exact ↔ True) := fun t h₁ h₂ h₃ => iff_of_true ⟨h₁, h₂, h₃⟩ trivial
  have hwds : ∀ p ks, (s.walkWds p ks).Exact ↔ True := fun p ks =>
    hkeep _ h.mpaths ((CountedList.exact_walk_iff _ _ _).2 h.wdsPathNum) h.wdsGptRecordNum
  cases e with
  | meshPathAdd dst env =>
    simp only [PathTables.apply, PathTables.rtwMeshPathAdd, TableEvent.Adds]
    by_cases hdst : dst = s.macAddr ∨ dst.isMcast
    · rw [if_pos hdst]
      exact iff_of_true h fun hnot => absurd hdst hnot
    · rw [if_neg hdst, imp_iff_right hdst]
      refine Iff.trans ?_ (countedAdd_exact_iff h.mpaths (x := { dst, expTime := s.now }))
      exact ⟨fun h' => h'.mpaths, fun h' => ⟨h', h.wdsPathNum, h.wdsGptRecordNum⟩⟩
  | mppPathAdd dst mpp env =>
    simp only [PathTables.apply, PathTables.rtwMppPathAdd, TableEvent.Adds]
    split_ifs <;> exact hkeep _ h.mpaths h.wdsPathNum h.wdsGptRecordNum
  | meshPathDel addr mpps => exact exact_walkPaths_iff.trans h.walkMpps_iff
  | meshFlushByNexthop sta paths => exact iff_of_true (exact_walkPaths_iff.2 h) trivial
  | meshFlushByIface paths mpps => exact (exact_walkPaths_iff.2 h).walkMpps_iff
  | meshExpire paths mpps => exact (exact_walkPaths_iff.2 h).walkMpps_iff
  | wdsPathAdd dst nextHop env =>
    simp only [PathTables.apply, TableEvent.Adds]
    by_cases hdst : dst = s.macAddr ∨ dst.isMcast
    · rw [PathTables.rtwWdsPathAdd, if_pos hdst]
      exact iff_of_true h fun hnot => absurd hdst hnot
    · obtain ⟨t, ht, -, hexact⟩ := rtwWdsPathAdd_snd hdst nextHop env
      rw [ht, imp_iff_right hdst]
      refine Iff.trans ?_ (hexact.trans (countedAdd_exact_iff h.wdsPathNum))
      exact ⟨fun h' => h'.wdsPathNum, fun h' => ⟨h.mpaths, h', h.wdsGptRecordNum⟩⟩
  | wdsPathDel addr => exact hwds _ _
  | wdsFlushByNexthop sta paths => exact hwds _ _
  | wdsFlushByIface paths => exact hwds _ _
  | wdsExpire paths => exact hwds _ _
  | gptrUpdate src env =>
    simp only [PathTables.apply, PathTables.rtwTxWdsGptrUpdate, TableEvent.Adds]
    cases hsrc : lookup WdsGptr.src s.wdsGptRecords.entries src with
    | none =>
      rw [imp_iff_right rfl]
      refine Iff.trans ?_ (countedAdd_exact_iff h.wdsGptRecordNum (x := ⟨src, s.now⟩))
      exact ⟨fun h' => h'.wdsGptRecordNum, fun h' => ⟨h.mpaths, h.wdsPathNum, h'⟩⟩
    | some x =>
      refine iff_of_true ?_ fun hnone => absurd hnone (Option.some_ne_none x)
      exact ⟨h.mpaths, h.wdsPathNum, (exact_map _ _).2 h.wdsGptRecordNum⟩
  | gptrExpire records =>
    exact hkeep _ h.mpaths h.wdsPathNum ((CountedList.exact_walk_iff _ _ _).2 h.wdsGptRecordNum)
  | change f g =>
    exact hkeep _ ((exact_map _ _).2 h.mpaths) ((exact_map _ _).2 h.wdsPathNum) h.wdsGptRecordNum
  | elapse ticks => exact hkeep _ h.mpaths h.wdsPathNum h.wdsGptRecordNum

theorem Exact.full_of_enospc (h : s.Exact) (e : TableEvent)
    (he : (s.apply e).1 = some .enospc) : e.Full s := by
  cases e with
  | meshPathAdd dst env =>
    simp only [PathTables.apply, PathTables.rtwMeshPathAdd] at he
    split_ifs at he
    · cases he
    · exact h.mpaths.symm.trans (countedAdd_enospc he)
  | mppPathAdd dst mpp env =>
    simp only [PathTables.apply, PathTables.rtwMppPathAdd] at he
    split_ifs at he <;> cases he
  | wdsPathAdd dst nextHop env =>
    simp only [PathTables.apply, PathTables.rtwWdsPathAdd] at he
    by_cases hdst : dst = s.macAddr ∨ dst.isMcast
    · rw [if_pos hdst] at he
      cases he
    · rw [if_neg hdst] at he
      exact h.wdsPathNum.symm.trans (countedAdd_enospc he)
  | gptrUpdate src env =>
    simp only [PathTables.apply, PathTables.rtwTxWdsGptrUpdate] at he
    split_ifs at he
    exact h.wdsGptRecordNum.symm.trans (countedAdd_enospc he)
  | _ => cases he

theorem Exact.right (h : s.Exact) (hb : s.Bounded) : s.Right where
  exact := h
  enospc := h.full_of_enospc
  meshPaths := h.mpaths.symm.trans_le hb.mpaths
  wdsPaths := h.wdsPathNum.symm.trans_le hb.wdsPathNum
  wdsGptRecords := h.wdsGptRecordNum.symm.trans_le hb.wdsGptRecordNum

theorem exists_run (s : PathTables) (es : List TableEvent) :
    ∃ s', Transition.run step s es = some s' := by
  induction es generalizing s with
  | nil => exact ⟨s, rfl⟩
  | cons e es ih => exact ih (s.apply e).2

end PathTables

/-- **The counters are right in every state of a run if and only if each of its operations adds what
it counts.** -/
theorem pathTables_exact_iff (macAddr : MacAddr) (hz : ℕ) (es : List TableEvent) :
    (∀ es' t, es' <+: es → Transition.run PathTables.step { macAddr, hz } es' = some t → t.Right) ↔
      Transition.Meets PathTables.step (fun s e => e.Adds s) { macAddr, hz } es := by
  obtain ⟨s', hrun⟩ := PathTables.exists_run { macAddr, hz } es
  refine Transition.forall_prefix_iff_meets
    (fun s (hs : s.Exact ∧ s.Bounded) => hs.1.right hs.2) (fun s e s' hs hstep => ?_) ?_ hrun
  · obtain rfl := Option.some.inj hstep
    have hiff := hs.1.apply_iff e
    have hbound := hs.2.apply e
    exact ⟨⟨fun h => hiff.1 h.exact, fun h => (hiff.2 h).right hbound⟩,
      fun h => ⟨hiff.2 h, hbound⟩⟩
  · have hmax : (0 : ℤ) ≤ 1024 := by decide
    exact ⟨⟨rfl, rfl, rfl⟩, hmax, hmax, hmax⟩

/-- A path for which there is no memory is counted. -/
theorem not_pathTables_right :
    ¬∀ (macAddr : MacAddr) (hz : ℕ) (es es' : List TableEvent) (t : PathTables), es' <+: es →
      Transition.run PathTables.step { macAddr, hz } es' = some t → t.Right := by
  intro h
  have hright := h .zero 100 [.meshPathAdd ⟨2, 0, 0, 0, 0, 1⟩ ⟨false, true⟩] _ _
    (List.prefix_refl _) rfl
  exact absurd hright.exact.mpaths (show ¬(1 : ℤ) = 0 by decide)

end Rtl88x2eu.Mesh
