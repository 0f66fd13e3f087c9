import Mathlib.Data.List.Perm.Basic
import Mathlib.Data.List.Range
import Rtl88x2eu.Lib.Transition
import Rtl88x2eu.Recv.Attrib

/-!
# The table of unassociated stations

With `CONFIG_RTW_MULTI_AP` the driver keeps the signal of the stations around it that are not
associated. Entries that are not marked as interested expire, and are deleted as a walk comes past
them; a full table gives up one of them.

Times do not wrap, and the clock stands still during an operation. The commands that set the RCR as
the count of interested entries becomes zero or one are left out.

## Main definitions

* `UnassocTable`
* `rxAddUnassocSta`, `addInterestedUnassocSta`, `undoInterestedUnassocSta`,
  `undoAllInterestedUnassocSta`, `delUnassocStaByAddr`, `delUnassocStaQueue`: the operations
* `Sound`, `KeepsInterested`, `EvictionLaw`: what is asked of the table and of a step
* `SameAge`

## Main results

* `sound_step`: the steps
* `evictionLaw_rxAdd`, `evictionLaw_addInterested_iff`: which entry is given up
* `unassocTable_iff`: the runs
-/

namespace Rtl88x2eu.Unassoc

inductive UnassocMode
  | disabled | interested | all
deriving DecidableEq, Repr

structure UnassocSta where
  addr : MacAddr := .zero
  interested : Bool := false
  recvSignalPower : ℤ := 0
  time : ℤ := 0
deriving DecidableEq, Repr

/-- The table, over the numbers of the entries in `free_unassoc_sta_buf`. -/
structure UnassocTable where
  free : List ℕ
  queue : List ℕ
  /-- `interested_unassoc_sta_cnt` -/
  interestedCnt : ℤ
  sta : ℕ → UnassocSta

/-- The other result of `del_unassoc_sta_chk` is that an entry is deleted or passed over. -/
def UnassocSta.expired (lifetime cur : ℤ) (s : UnassocSta) : Bool :=
  !s.interested && decide (s.time + lifetime ≤ cur)

namespace UnassocTable

def init (maxUnassocStaCnt : ℕ) : UnassocTable where
  free := List.range maxUnassocStaCnt
  queue := []
  interestedCnt := 0
  sta _ := {}

/-- An entry is written. -/
def setSta (t : UnassocTable) (p : ℕ) (s : UnassocSta) : UnassocTable :=
  { t with sta := Function.update t.sta p s }

def delUnassocSta (t : UnassocTable) (p : ℕ) : UnassocTable :=
  { t with
    interestedCnt := if (t.sta p).interested then t.interestedCnt - 1 else t.interestedCnt
    queue := t.queue.erase p
    free := t.free ++ [p] }

def allocUnassocSta (t : UnassocTable) : UnassocTable × Option ℕ :=
  match t.free with
  | [] => (t, none)
  | p :: free => ({ t with free }.setSta p {}, some p)

def pick (t : UnassocTable) (preferred : ℤ → ℤ → Bool) (p : ℕ) : Option ℕ → Option ℕ
  | none => some p
  | some q => if preferred (t.sta p).time (t.sta q).time then some p else some q

/-- The loop of `rtw_rx_add_unassoc_sta` and `rtw_add_interested_unassoc_sta`, up to an entry at
which it stops: the table, the choice and that entry. Expired entries are deleted on the way. -/
def walk (stop : UnassocSta → Bool) (preferred : ℤ → ℤ → Bool) (lifetime cur : ℤ) :
    List ℕ → Option ℕ → UnassocTable → UnassocTable × Option ℕ × Option ℕ
  | [], oldest, t => (t, oldest, none)
  | p :: rest, oldest, t =>
    if stop (t.sta p) then (t, oldest, some p)
    else if (t.sta p).expired lifetime cur then
      walk stop preferred lifetime cur rest oldest (t.delUnassocSta p)
    else if (t.sta p).interested then walk stop preferred lifetime cur rest oldest t
    else walk stop preferred lifetime cur rest (t.pick preferred p oldest) t

/-- An entry from the free queue, or that of the choice. -/
def allocOrEvict (t : UnassocTable) (oldest : Option ℕ) : UnassocTable × Option ℕ :=
  match t.allocUnassocSta with
  | (t, some p) => (t, some p)
  | (t, none) =>
    match oldest with
    | none => (t, none)
    | some o => (t.delUnassocSta o).allocUnassocSta

def insert (t : UnassocTable) (s : UnassocSta) : UnassocTable × Option ℕ → UnassocTable
  | (_, none) => t
  | (t, some p) =>
    { t.setSta p s with
      queue := t.queue ++ [p]
      interestedCnt := if s.interested then t.interestedCnt + 1 else t.interestedCnt }

def rxAddUnassocSta (lifetime : ℤ) (t : UnassocTable) (mode : UnassocMode) (addr : MacAddr)
    (recvSignalPower cur : ℤ) : UnassocTable :=
  let stop (s : UnassocSta) : Bool := s.addr = addr && (s.interested || mode = .all)
  match walk stop (fun new old => new < old) lifetime cur t.queue none t with
  | (t, _, some p) => t.setSta p { t.sta p with recvSignalPower, time := cur }
  | (t, oldest, none) =>
    if mode ≠ .all then t
    else t.insert { addr, recvSignalPower, time := cur } (t.allocOrEvict oldest)

def addInterestedUnassocSta (lifetime : ℤ) (t : UnassocTable) (addr : MacAddr) (cur : ℤ) :
    UnassocTable :=
  match walk (fun s => s.addr = addr) (fun new old => old < new) lifetime cur t.queue none t with
  | (t, _, some p) =>
    if (t.sta p).interested then t
    else { t.setSta p { t.sta p with interested := true } with
      interestedCnt := t.interestedCnt + 1 }
  | (t, oldest, none) =>
    t.insert { addr, interested := true, time := cur - lifetime } (t.allocOrEvict oldest)

/-- An entry is not marked any more. -/
def unmark (t : UnassocTable) (p : ℕ) : UnassocTable :=
  if (t.sta p).interested then
    { t.setSta p { t.sta p with interested := false } with
      interestedCnt := t.interestedCnt - 1 }
  else t

/-- The first entry of an address. -/
def find (t : UnassocTable) (addr : MacAddr) : Option ℕ :=
  t.queue.find? fun p => (t.sta p).addr = addr

def undoInterestedUnassocSta (t : UnassocTable) (addr : MacAddr) : UnassocTable :=
  (t.find addr).elim t t.unmark

/-- The loop of `rtw_undo_all_interested_unassoc_sta`, which ends as the counter becomes zero. -/
def unmarkLoop : List ℕ → UnassocTable → UnassocTable
  | [], t => t
  | p :: rest, t =>
    if (t.sta p).interested && (t.unmark p).interestedCnt = 0 then t.unmark p
    else unmarkLoop rest (t.unmark p)

def undoAllInterestedUnassocSta (t : UnassocTable) : UnassocTable := unmarkLoop t.queue t

def delUnassocStaByAddr (t : UnassocTable) (addr : MacAddr) : UnassocTable :=
  (t.find addr).elim t t.delUnassocSta

def delUnassocStaQueue (t : UnassocTable) : UnassocTable :=
  t.queue.foldl delUnassocSta t

end UnassocTable

/-- What happens to the table, at a time. -/
inductive UnassocOp
  | rxAdd (mode : UnassocMode) (addr : MacAddr) (recvSignalPower cur : ℤ)
  | addInterested (addr : MacAddr) (cur : ℤ)
  | undoInterested (addr : MacAddr)
  | undoAllInterested
  | del (addr : MacAddr)
  | delQueue

/-- The table after an operation, if `UNASSOC_STA_LIFETIME_MS` is this long. -/
def unassocStep (lifetime : ℤ) (t : UnassocTable) : UnassocOp → UnassocTable
  | .rxAdd mode addr recvSignalPower cur =>
    t.rxAddUnassocSta lifetime mode addr recvSignalPower cur
  | .addInterested addr cur => t.addInterestedUnassocSta lifetime addr cur
  | .undoInterested addr => t.undoInterestedUnassocSta addr
  | .undoAllInterested => t.undoAllInterestedUnassocSta
  | .del addr => t.delUnassocStaByAddr addr
  | .delQueue => t.delUnassocStaQueue

structure Sound (maxUnassocStaCnt : ℕ) (t : UnassocTable) : Prop where
  custody : (t.free ++ t.queue).Perm (List.range maxUnassocStaCnt)
  distinct : ∀ p ∈ t.queue, ∀ q ∈ t.queue, (t.sta p).addr = (t.sta q).addr → p = q
  count : t.interestedCnt = t.queue.countP fun p => (t.sta p).interested

def UnassocOp.Deletes (addr : MacAddr) : UnassocOp → Prop
  | .del addr' => addr' = addr
  | .delQueue => True
  | _ => False

def KeepsInterested (t : UnassocTable) (e : UnassocOp) (t' : UnassocTable) : Prop :=
  ∀ p ∈ t.queue, (t.sta p).interested = true → ¬ e.Deletes (t.sta p).addr →
    p ∈ t'.queue ∧ (t'.sta p).addr = (t.sta p).addr

def EvictionLaw (lifetime : ℤ) (t t' : UnassocTable) (addr : MacAddr) (cur : ℤ) : Prop :=
  t.free = [] → (∀ p ∈ t.queue, (t.sta p).addr ≠ addr) →
    (∀ p ∈ t.queue, (t.sta p).expired lifetime cur = false) →
    (∀ p ∈ t.queue, (t.sta p).interested = true) ∧ t' = t ∨
    ∃ o ∈ t.queue, (t.sta o).interested = false ∧
      (∀ q ∈ t.queue, (t.sta q).interested = false → (t.sta o).time ≤ (t.sta q).time) ∧
      t'.queue = t.queue.erase o ++ [o] ∧ (t'.sta o).addr = addr ∧
      ∀ q, q ≠ o → t'.sta q = t.sta q

def StepEvicts (lifetime : ℤ) (t : UnassocTable) (e : UnassocOp) (t' : UnassocTable) : Prop :=
  match e with
  | .rxAdd mode addr _ cur => mode = .all → EvictionLaw lifetime t t' addr cur
  | .addInterested addr cur => EvictionLaw lifetime t t' addr cur
  | _ => True

/-- When the newest entry is as old as the oldest. -/
def SameAge (lifetime : ℤ) (t : UnassocTable) : UnassocOp → Prop
  | .addInterested addr cur =>
    t.free = [] → (∀ p ∈ t.queue, (t.sta p).addr ≠ addr) →
      (∀ p ∈ t.queue, (t.sta p).expired lifetime cur = false) →
      ∀ p ∈ t.queue, (t.sta p).interested = false →
        ∀ q ∈ t.queue, (t.sta q).interested = false → (t.sta p).time = (t.sta q).time
  | _ => True

open UnassocTable

section Parts

variable {n : ℕ} {t : UnassocTable} {p : ℕ} {s : UnassocSta} {addr : MacAddr} {free : List ℕ}

theorem Sound.nodup (h : Sound n t) : t.queue.Nodup ∧ ∀ p ∈ t.free, p ∉ t.queue := by
  have hnodup : (t.free ++ t.queue).Nodup := h.custody.nodup_iff.mpr List.nodup_range
  obtain ⟨-, hqueue, hne⟩ := List.nodup_append.mp hnodup
  exact ⟨hqueue, fun p hp hq => hne p hp p hq rfl⟩

/-- **An entry is deleted.** -/
theorem Sound.del (h : Sound n t) (hp : p ∈ t.queue) : Sound n (t.delUnassocSta p) := by
  have hperm := List.perm_cons_erase hp
  refine ⟨?_, fun q hq r hr => ?_, ?_⟩
  · show (t.free ++ [p] ++ t.queue.erase p).Perm _
    rw [List.append_assoc]
    exact (hperm.symm.append_left t.free).trans h.custody
  · exact h.distinct q (List.mem_of_mem_erase hq) r (List.mem_of_mem_erase hr)
  · have hcount := h.count
    rw [hperm.countP_eq, List.countP_cons] at hcount
    show (if (t.sta p).interested then t.interestedCnt - 1 else t.interestedCnt) =
      ((t.queue.erase p).countP fun q => (t.sta q).interested : ℕ)
    rw [hcount]
    split <;> push_cast <;> omega

theorem countP_update {l : List ℕ} (hnodup : l.Nodup) (hp : p ∈ l) (f : ℕ → UnassocSta) :
    l.countP (fun q => (Function.update f p s q).interested) +
        (if (f p).interested then 1 else 0) =
      l.countP (fun q => (f q).interested) + if s.interested then 1 else 0 := by
  have hperm := List.perm_cons_erase hp
  have hrest : (l.erase p).countP (fun q => (Function.update f p s q).interested) =
      (l.erase p).countP fun q => (f q).interested := by
    refine List.countP_congr fun q hq => ?_
    have hqp : q ≠ p := fun hqp => (List.Nodup.not_mem_erase hnodup) (hqp ▸ hq)
    rw [Function.update_of_ne hqp]
  rw [hperm.countP_eq, hperm.countP_eq, List.countP_cons, List.countP_cons, hrest,
    Function.update_self]
  omega

theorem Sound.setSta (h : Sound n t) (hp : p ∈ t.queue) (haddr : s.addr = (t.sta p).addr)
    {cnt : ℤ} (hcnt : cnt + (if (t.sta p).interested then 1 else 0) =
      t.interestedCnt + if s.interested then 1 else 0) :
    Sound n { t.setSta p s with interestedCnt := cnt } := by
  have haddr' : ∀ q, (Function.update t.sta p s q).addr = (t.sta q).addr := by
    intro q
    by_cases hqp : q = p
    · rw [hqp, Function.update_self, haddr]
    · rw [Function.update_of_ne hqp]
  refine ⟨h.custody, fun q hq r hr heq => ?_, ?_⟩
  · change (Function.update t.sta p s q).addr = (Function.update t.sta p s r).addr at heq
    rw [haddr', haddr'] at heq
    exact h.distinct q hq r hr heq
  · have hupdate := @countP_update p s t.queue h.nodup.1 hp t.sta
    show cnt = (t.queue.countP fun q => (Function.update t.sta p s q).interested : ℕ)
    have hcount := h.count
    cases hi : (t.sta p).interested <;> cases hs : s.interested <;>
      simp only [hi, hs, if_true, if_false, Bool.false_eq_true] at hcnt hupdate ⊢ <;> omega

theorem Sound.unmark (h : Sound n t) (hp : p ∈ t.queue) : Sound n (t.unmark p) := by
  unfold UnassocTable.unmark
  split
  case isTrue hint =>
    refine @Sound.setSta n t p { t.sta p with interested := false } h hp rfl _ ?_
    rw [hint]
    simp
  case isFalse => exact h

theorem insert_alloc (t₀ : UnassocTable) (hfree : t.free = p :: free) (s : UnassocSta) :
    t₀.insert s t.allocUnassocSta =
      ⟨free, t.queue ++ [p],
        if s.interested then t.interestedCnt + 1 else t.interestedCnt,
        Function.update t.sta p s⟩ := by
  unfold UnassocTable.insert UnassocTable.allocUnassocSta
  rw [hfree]
  simp [UnassocTable.setSta]

theorem Sound.insert (h : Sound n t) (t₀ : UnassocTable) (hfree : t.free = p :: free)
    (hnew : ∀ q ∈ t.queue, (t.sta q).addr ≠ s.addr) :
    Sound n (t₀.insert s t.allocUnassocSta) := by
  have hout : p ∉ t.queue := h.nodup.2 p (hfree ▸ List.mem_cons_self)
  have hne : ∀ q ∈ t.queue, q ≠ p := fun q hq => ne_of_mem_of_not_mem hq hout
  rw [insert_alloc t₀ hfree]
  refine ⟨?_, fun q hq r hr heq => ?_, ?_⟩
  · have hmoved : (free ++ (t.queue ++ [p])).Perm (p :: free ++ t.queue) := by
      rw [← List.append_assoc]
      exact List.perm_append_singleton p _
    exact hmoved.trans (hfree ▸ h.custody)
  · dsimp only at hq hr heq
    rcases List.mem_append.mp hq with hq | hq <;> rcases List.mem_append.mp hr with hr | hr
    · rw [Function.update_of_ne (hne q hq), Function.update_of_ne (hne r hr)] at heq
      exact h.distinct q hq r hr heq
    · rw [List.mem_singleton.mp hr, Function.update_self,
        Function.update_of_ne (hne q hq)] at heq
      exact absurd heq (hnew q hq)
    · rw [List.mem_singleton.mp hq, Function.update_self,
        Function.update_of_ne (hne r hr)] at heq
      exact absurd heq.symm (hnew r hr)
    · rw [List.mem_singleton.mp hq, List.mem_singleton.mp hr]
  · have hkept : (t.queue.countP fun q => (Function.update t.sta p s q).interested) =
        t.queue.countP fun q => (t.sta q).interested := by
      refine List.countP_congr fun q hq => ?_
      rw [Function.update_of_ne (hne q hq)]
    dsimp only
    rw [List.countP_append, hkept, h.count, List.countP_singleton, Function.update_self]
    split <;> push_cast <;> omega

structure Walked (n : ℕ) (stop : UnassocSta → Bool) (entries : List ℕ) (t : UnassocTable)
    (r : UnassocTable × Option ℕ × Option ℕ) : Prop where
  sound : Sound n r.1
  sta : r.1.sta = t.sta
  queue : ∀ q ∈ r.1.queue, q ∈ t.queue
  kept : ∀ q ∈ t.queue, (t.sta q).interested = true → q ∈ r.1.queue
  chosen : ∀ o, r.2.1 = some o → o ∈ r.1.queue ∧ (t.sta o).interested = false
  found : ∀ p, r.2.2 = some p → p ∈ r.1.queue ∧ stop (t.sta p) = true
  missed : r.2.2 = none → ∀ q ∈ entries, stop (t.sta q) = false

theorem pick_cases (preferred : ℤ → ℤ → Bool) (oldest : Option ℕ) :
    t.pick preferred p oldest = some p ∨ t.pick preferred p oldest = oldest := by
  cases oldest with
  | none => exact .inl rfl
  | some q =>
    by_cases hpref : preferred (t.sta p).time (t.sta q).time = true
    · exact .inl (if_pos hpref)
    · exact .inr (if_neg hpref)

/-- **The walk**: it deletes only what is not marked, and stops or has seen all. -/
theorem Sound.walk {stop : UnassocSta → Bool} {preferred : ℤ → ℤ → Bool} {lifetime cur : ℤ}
    {entries : List ℕ} {oldest : Option ℕ} (h : Sound n t) (hnodup : entries.Nodup)
    (hin : ∀ p ∈ entries, p ∈ t.queue)
    (hold : ∀ o, oldest = some o → o ∈ t.queue ∧ o ∉ entries ∧ (t.sta o).interested = false) :
    Walked n stop entries t (UnassocTable.walk stop preferred lifetime cur entries oldest t) := by
  induction entries generalizing t oldest with
  | nil =>
    exact ⟨h, rfl, fun q hq => hq, fun q hq _ => hq,
      fun o ho => ⟨(hold o ho).1, (hold o ho).2.2⟩, fun p hp => (nomatch hp),
      fun _ q hq => absurd hq List.not_mem_nil⟩
  | cons p entries ih =>
    obtain ⟨hp, hnodup⟩ := List.nodup_cons.mp hnodup
    have hpin := hin p List.mem_cons_self
    have hrest : ∀ q ∈ entries, q ∈ t.queue := fun q hq => hin q (List.mem_cons_of_mem _ hq)
    have hold' : ∀ o, oldest = some o →
        o ∈ t.queue ∧ o ∉ entries ∧ (t.sta o).interested = false ∧ o ≠ p := by
      intro o ho
      obtain ⟨ho₁, ho₂, ho₃⟩ := hold o ho
      exact ⟨ho₁, fun hmem => ho₂ (List.mem_cons_of_mem _ hmem), ho₃,
        fun hop => ho₂ (hop ▸ List.mem_cons_self)⟩
    unfold UnassocTable.walk
    by_cases hstop : stop (t.sta p) = true
    · rw [if_pos hstop]
      refine ⟨h, rfl, fun q hq => hq, fun q hq _ => hq,
        fun o ho => ⟨(hold' o ho).1, (hold' o ho).2.2.1⟩, fun q hq => ?_, fun hno => (nomatch hno)⟩
      obtain rfl := Option.some.inj hq
      exact ⟨hpin, hstop⟩
    rw [if_neg hstop]
    -- what was seen before is passed on to the rest of the walk
    have hcons : ∀ {r : UnassocTable × Option ℕ × Option ℕ},
        (r.2.2 = none → ∀ q ∈ entries, stop (t.sta q) = false) →
        r.2.2 = none → ∀ q ∈ p :: entries, stop (t.sta q) = false := by
      intro r hmissed hnone q hq
      rcases List.mem_cons.mp hq with rfl | hq
      · exact Bool.eq_false_iff.mpr hstop
      · exact hmissed hnone q hq
    by_cases hexpired : (t.sta p).expired lifetime cur = true
    · rw [if_pos hexpired]
      have hfree : (t.sta p).interested = false := by
        unfold UnassocSta.expired at hexpired
        simp only [Bool.and_eq_true, Bool.not_eq_true'] at hexpired
        exact hexpired.1
      have hrest' : ∀ q ∈ entries, q ∈ (t.delUnassocSta p).queue := fun q hq =>
        (List.mem_erase_of_ne (ne_of_mem_of_not_mem hq hp)).mpr (hrest q hq)
      obtain ⟨hsound, hsta, hqueue, hkept, hchosen, hfound, hmissed⟩ :=
        ih (h.del hpin) hnodup hrest' fun o ho => by
          obtain ⟨ho₁, ho₂, ho₃, ho₄⟩ := hold' o ho
          exact ⟨(List.mem_erase_of_ne ho₄).mpr ho₁, ho₂, ho₃⟩
      refine ⟨hsound, hsta, fun q hq => List.mem_of_mem_erase (hqueue q hq), fun q hq hint => ?_,
        hchosen, hfound, hcons hmissed⟩
      have hqp : q ≠ p := by
        rintro rfl
        exact Bool.false_ne_true (hfree.symm.trans hint)
      exact hkept q ((List.mem_erase_of_ne hqp).mpr hq) hint
    rw [if_neg hexpired]
    by_cases hint : (t.sta p).interested = true
    · rw [if_pos hint]
      obtain ⟨hsound, hsta, hqueue, hkept, hchosen, hfound, hmissed⟩ :=
        ih h hnodup hrest fun o ho => ⟨(hold' o ho).1, (hold' o ho).2.1, (hold' o ho).2.2.1⟩
      exact ⟨hsound, hsta, hqueue, hkept, hchosen, hfound, hcons hmissed⟩
    · rw [if_neg hint]
      obtain ⟨hsound, hsta, hqueue, hkept, hchosen, hfound, hmissed⟩ :=
        ih h hnodup hrest fun o ho => by
          rcases pick_cases preferred oldest with hpick | hpick
          · obtain rfl := Option.some.inj (hpick.symm.trans ho)
            exact ⟨hpin, hp, Bool.eq_false_iff.mpr hint⟩
          · obtain ⟨ho₁, ho₂, ho₃, -⟩ := hold' o (hpick.symm.trans ho)
            exact ⟨ho₁, ho₂, ho₃⟩
      exact ⟨hsound, hsta, hqueue, hkept, hchosen, hfound, hcons hmissed⟩

theorem allocOrEvict_cons (hfree : t.free = p :: free) (oldest : Option ℕ) :
    t.allocOrEvict oldest = t.allocUnassocSta := by
  unfold allocOrEvict allocUnassocSta
  rw [hfree]

theorem allocOrEvict_nil (hfree : t.free = []) (oldest : Option ℕ) :
    t.allocOrEvict oldest =
      oldest.elim (t, none) fun o => (t.delUnassocSta o).allocUnassocSta := by
  have halloc : t.allocUnassocSta = (t, none) := by
    unfold allocUnassocSta
    rw [hfree]
  unfold allocOrEvict
  rw [halloc]
  cases oldest <;> rfl

theorem free_delUnassocSta (hfree : t.free = []) : (t.delUnassocSta p).free = [p] := by
  show t.free ++ [p] = [p]
  rw [hfree]
  rfl

theorem Sound.insertChosen {oldest : Option ℕ} (h : Sound n t)
    (hold : ∀ o, oldest = some o → o ∈ t.queue ∧ (t.sta o).interested = false)
    (hnew : ∀ q ∈ t.queue, (t.sta q).addr ≠ s.addr) :
    Sound n (t.insert s (t.allocOrEvict oldest)) ∧
      ∀ q ∈ t.queue, (t.sta q).interested = true →
        q ∈ (t.insert s (t.allocOrEvict oldest)).queue ∧
        (t.insert s (t.allocOrEvict oldest)).sta q = t.sta q := by
  cases hfree : t.free with
  | cons p free =>
    have hout : p ∉ t.queue := h.nodup.2 p (hfree ▸ List.mem_cons_self)
    rw [allocOrEvict_cons hfree]
    refine ⟨h.insert t hfree hnew, fun q hq _ => ?_⟩
    rw [insert_alloc t hfree]
    exact ⟨List.mem_append_left _ hq,
      Function.update_of_ne (ne_of_mem_of_not_mem hq hout) ..⟩
  | nil =>
    rw [allocOrEvict_nil hfree]
    cases oldest with
    | none => exact ⟨h, fun q hq _ => ⟨hq, rfl⟩⟩
    | some o =>
      obtain ⟨ho, hint⟩ := hold o rfl
      have hfree' : (t.delUnassocSta o).free = o :: [] := free_delUnassocSta hfree
      rw [Option.elim_some]
      refine ⟨(h.del ho).insert t hfree' fun q hq => hnew q (List.mem_of_mem_erase hq),
        fun q hq hq' => ?_⟩
      have hqo : q ≠ o := by
        rintro rfl
        exact Bool.false_ne_true (hint.symm.trans hq')
      rw [insert_alloc t hfree']
      exact ⟨List.mem_append_left _ ((List.mem_erase_of_ne hqo).mpr hq),
        Function.update_of_ne hqo ..⟩

end Parts

/-! ## The operations -/

section Steps

variable {n : ℕ} {lifetime cur : ℤ} {t : UnassocTable} {addr : MacAddr} {p q : ℕ}
  {mode : UnassocMode} {power : ℤ}

theorem Sound.walkQueue (h : Sound n t) (stop : UnassocSta → Bool) (preferred : ℤ → ℤ → Bool)
    (lifetime cur : ℤ) : Walked n stop t.queue t
      (UnassocTable.walk stop preferred lifetime cur t.queue none t) :=
  h.walk h.nodup.1 (fun _ hp => hp) fun _ ho => (nomatch ho)

/-- The entries that are marked stay, under their addresses. -/
def Keeps (t t' : UnassocTable) : Prop :=
  ∀ p ∈ t.queue, (t.sta p).interested = true →
    p ∈ t'.queue ∧ (t'.sta p).addr = (t.sta p).addr

theorem Sound.rxAdd (h : Sound n t) :
    Sound n (t.rxAddUnassocSta lifetime mode addr power cur) ∧
      Keeps t (t.rxAddUnassocSta lifetime mode addr power cur) := by
  unfold rxAddUnassocSta
  have hwalked := h.walkQueue (fun s => s.addr = addr && (s.interested || mode = .all))
    (fun new old => new < old) lifetime cur
  dsimp only
  generalize UnassocTable.walk _ _ lifetime cur t.queue none t = r at hwalked ⊢
  obtain ⟨t', oldest, found⟩ := r
  obtain ⟨hsound, hsta, hqueue, hkept, hchosen, hfound, hmissed⟩ := hwalked
  dsimp only at hsound hsta hqueue hkept hchosen hfound hmissed
  cases found with
  | some p =>
    dsimp only
    refine ⟨@Sound.setSta n t' p { t'.sta p with recvSignalPower := power, time := cur } hsound
      (hfound p rfl).1 rfl t'.interestedCnt rfl, fun q hq hint => ⟨hkept q hq hint, ?_⟩⟩
    show (Function.update t'.sta p _ q).addr = _
    by_cases hqp : q = p
    · rw [hqp, Function.update_self, hsta]
    · rw [Function.update_of_ne hqp, hsta]
  | none =>
    dsimp only
    split
    case isTrue => exact ⟨hsound, fun q hq hint => ⟨hkept q hq hint, by rw [hsta]⟩⟩
    case isFalse hall =>
      have hmode : mode = .all := not_not.mp hall
      have hnew : ∀ q ∈ t'.queue, (t'.sta q).addr ≠ addr := by
        intro q hq heq
        have hno := hmissed rfl q (hqueue q hq)
        rw [← hsta] at hno
        simp [heq, hmode] at hno
      obtain ⟨hsound', hkept'⟩ := @Sound.insertChosen n t'
        { addr, recvSignalPower := power, time := cur } oldest hsound
        (fun o ho => hsta ▸ hchosen o ho) hnew
      refine ⟨hsound', fun q hq hint => ?_⟩
      obtain ⟨hq', hsame⟩ := hkept' q (hkept q hq hint) (hsta ▸ hint)
      exact ⟨hq', by rw [hsame, hsta]⟩

theorem Sound.addInterested (h : Sound n t) :
    Sound n (t.addInterestedUnassocSta lifetime addr cur) ∧
      Keeps t (t.addInterestedUnassocSta lifetime addr cur) := by
  unfold addInterestedUnassocSta
  have hwalked := h.walkQueue (fun s => s.addr = addr) (fun new old => old < new) lifetime cur
  generalize UnassocTable.walk _ _ lifetime cur t.queue none t = r at hwalked ⊢
  obtain ⟨t', oldest, found⟩ := r
  obtain ⟨hsound, hsta, hqueue, hkept, hchosen, hfound, hmissed⟩ := hwalked
  dsimp only at hsound hsta hqueue hkept hchosen hfound hmissed
  cases found with
  | some p =>
    dsimp only
    split
    case isTrue => exact ⟨hsound, fun q hq hint => ⟨hkept q hq hint, by rw [hsta]⟩⟩
    case isFalse hint =>
      have hcnt : t'.interestedCnt + 1 + (if (t'.sta p).interested then 1 else 0) =
          t'.interestedCnt + if true then 1 else 0 := by
        rw [if_neg hint, if_pos rfl, add_zero]
      refine ⟨@Sound.setSta n t' p { t'.sta p with interested := true } hsound
        (hfound p rfl).1 rfl _ hcnt, fun q hq hint => ⟨hkept q hq hint, ?_⟩⟩
      show (Function.update t'.sta p _ q).addr = _
      by_cases hqp : q = p
      · rw [hqp, Function.update_self, hsta]
      · rw [Function.update_of_ne hqp, hsta]
  | none =>
    dsimp only
    have hnew : ∀ q ∈ t'.queue, (t'.sta q).addr ≠ addr := by
      intro q hq heq
      have hno := hmissed rfl q (hqueue q hq)
      rw [← hsta] at hno
      simp [heq] at hno
    obtain ⟨hsound', hkept'⟩ := @Sound.insertChosen n t'
      { addr, interested := true, time := cur - lifetime } oldest hsound
      (fun o ho => hsta ▸ hchosen o ho) hnew
    refine ⟨hsound', fun q hq hint => ?_⟩
    obtain ⟨hq', hsame⟩ := hkept' q (hkept q hq hint) (hsta ▸ hint)
    exact ⟨hq', by rw [hsame, hsta]⟩

/-- Only the mark of an entry changes. -/
theorem unmark_same (t : UnassocTable) (p q : ℕ) :
    (t.unmark p).queue = t.queue ∧ ((t.unmark p).sta q).addr = (t.sta q).addr := by
  unfold UnassocTable.unmark
  split
  · refine ⟨rfl, ?_⟩
    show (Function.update t.sta p _ q).addr = _
    by_cases hqp : q = p
    · rw [hqp, Function.update_self]
    · rw [Function.update_of_ne hqp]
  · exact ⟨rfl, rfl⟩

theorem keeps_of_same {t' : UnassocTable} (h : ∀ q, t'.queue = t.queue ∧
    (t'.sta q).addr = (t.sta q).addr) : Keeps t t' :=
  fun q hq _ => ⟨(h q).1 ▸ hq, (h q).2⟩

theorem Sound.undo (h : Sound n t) : Sound n (t.undoInterestedUnassocSta addr) ∧
    Keeps t (t.undoInterestedUnassocSta addr) := by
  unfold undoInterestedUnassocSta
  cases hfind : t.find addr with
  | none => exact ⟨h, keeps_of_same fun _ => ⟨rfl, rfl⟩⟩
  | some p =>
    rw [Option.elim_some]
    exact ⟨h.unmark (List.mem_of_find?_eq_some hfind), keeps_of_same (unmark_same t p)⟩

/-- **The loop over the marked entries.** -/
theorem Sound.unmarkLoop {entries : List ℕ} (h : Sound n t) (hin : ∀ p ∈ entries, p ∈ t.queue) :
    Sound n (UnassocTable.unmarkLoop entries t) ∧
      ∀ q, (UnassocTable.unmarkLoop entries t).queue = t.queue ∧
        ((UnassocTable.unmarkLoop entries t).sta q).addr = (t.sta q).addr := by
  induction entries generalizing t with
  | nil => exact ⟨h, fun q => ⟨rfl, rfl⟩⟩
  | cons p entries ih =>
    have hunmark := h.unmark (hin p List.mem_cons_self)
    have hsame := unmark_same t p
    unfold UnassocTable.unmarkLoop
    split
    case isTrue => exact ⟨hunmark, hsame⟩
    case isFalse =>
      obtain ⟨hsound, hrest⟩ := ih hunmark fun q hq =>
        (hsame q).1 ▸ hin q (List.mem_cons_of_mem _ hq)
      exact ⟨hsound, fun q => ⟨(hrest q).1.trans (hsame q).1, (hrest q).2.trans (hsame q).2⟩⟩

theorem Sound.delByAddr (h : Sound n t) : Sound n (t.delUnassocStaByAddr addr) ∧
    ∀ p ∈ t.queue, (t.sta p).addr ≠ addr → p ∈ (t.delUnassocStaByAddr addr).queue ∧
      ((t.delUnassocStaByAddr addr).sta p).addr = (t.sta p).addr := by
  unfold delUnassocStaByAddr
  cases hfind : t.find addr with
  | none => exact ⟨h, fun q hq _ => ⟨hq, rfl⟩⟩
  | some p =>
    rw [Option.elim_some]
    have haddr : (t.sta p).addr = addr := by
      unfold UnassocTable.find at hfind
      simpa using List.find?_some hfind
    refine ⟨h.del (List.mem_of_find?_eq_some hfind), fun q hq hne => ⟨?_, rfl⟩⟩
    have hqp : q ≠ p := by
      rintro rfl
      exact hne haddr
    exact (List.mem_erase_of_ne hqp).mpr hq

/-- **The loop over the queue**, which deletes everything. -/
theorem Sound.delLoop {entries : List ℕ} (h : Sound n t) (hnodup : entries.Nodup)
    (hin : ∀ p ∈ entries, p ∈ t.queue) : Sound n (entries.foldl delUnassocSta t) := by
  induction entries generalizing t with
  | nil => exact h
  | cons p entries ih =>
    obtain ⟨hp, hnodup⟩ := List.nodup_cons.mp hnodup
    refine ih (h.del (hin p List.mem_cons_self)) hnodup fun q hq => ?_
    exact (List.mem_erase_of_ne (ne_of_mem_of_not_mem hq hp)).mpr
      (hin q (List.mem_cons_of_mem _ hq))

/-- **Every operation keeps the table sound**, and removes marked entries only where it deletes. -/
theorem sound_step (h : Sound n t) (e : UnassocOp) :
    Sound n (unassocStep lifetime t e) ∧ KeepsInterested t e (unassocStep lifetime t e) := by
  have hkeeps : ∀ {t'}, Keeps t t' → KeepsInterested t e t' :=
    fun hkeep p hp hint _ => hkeep p hp hint
  cases e with
  | rxAdd mode addr power cur => exact ⟨h.rxAdd.1, hkeeps h.rxAdd.2⟩
  | addInterested addr cur => exact ⟨h.addInterested.1, hkeeps h.addInterested.2⟩
  | undoInterested addr => exact ⟨h.undo.1, hkeeps h.undo.2⟩
  | undoAllInterested =>
    obtain ⟨hsound, hsame⟩ := h.unmarkLoop fun p hp => hp
    exact ⟨hsound, hkeeps (keeps_of_same hsame)⟩
  | del addr =>
    exact ⟨h.delByAddr.1, fun p hp _ hnot => h.delByAddr.2 p hp fun heq => hnot heq.symm⟩
  | delQueue =>
    exact ⟨h.delLoop h.nodup.1 fun p hp => hp, fun p hp _ hnot => absurd trivial hnot⟩

/-! ## Which entry is given up -/

def Picked (preferred : ℤ → ℤ → Bool) (t : UnassocTable) (entries : List ℕ) :
    Option ℕ → Prop
  | none => ∀ q ∈ entries, (t.sta q).interested = true
  | some o => o ∈ entries ∧ (t.sta o).interested = false ∧ ∀ q ∈ entries,
      (t.sta q).interested = false → preferred (t.sta q).time (t.sta o).time = false

/-- An order in which times are preferred: earlier ones, or later ones. -/
structure Prefers (preferred : ℤ → ℤ → Bool) : Prop where
  irrefl : ∀ a, preferred a a = false
  trans : ∀ a b c, preferred b a = true → preferred c a = false → preferred c b = false

theorem Picked.snoc {preferred : ℤ → ℤ → Bool} (hpref : Prefers preferred) {done : List ℕ}
    {oldest : Option ℕ} (h : Picked preferred t done oldest) (hp : (t.sta p).interested = false) :
    Picked preferred t (done ++ [p]) (t.pick preferred p oldest) := by
  have hlast : p ∈ done ++ [p] := List.mem_append_right _ List.mem_cons_self
  cases oldest with
  | none =>
    refine ⟨hlast, hp, fun q hq hint => ?_⟩
    rcases List.mem_append.mp hq with hq | hq
    · exact absurd (hint.symm.trans (h q hq)) Bool.false_ne_true
    · rw [List.mem_singleton.mp hq]
      exact hpref.irrefl _
  | some o =>
    obtain ⟨ho, hoint, hbest⟩ := h
    unfold pick
    dsimp only
    by_cases hnew : preferred (t.sta p).time (t.sta o).time = true
    · rw [if_pos hnew]
      refine ⟨hlast, hp, fun q hq hint => ?_⟩
      rcases List.mem_append.mp hq with hq | hq
      · exact hpref.trans _ _ _ hnew (hbest q hq hint)
      · rw [List.mem_singleton.mp hq]
        exact hpref.irrefl _
    · rw [if_neg hnew]
      refine ⟨List.mem_append_left _ ho, hoint, fun q hq hint => ?_⟩
      rcases List.mem_append.mp hq with hq | hq
      · exact hbest q hq hint
      · rw [List.mem_singleton.mp hq]
        exact Bool.eq_false_iff.mpr hnew

/-- **A walk that neither stops nor deletes** makes a choice among all entries. -/
theorem walk_whole {stop : UnassocSta → Bool} {preferred : ℤ → ℤ → Bool}
    (hpref : Prefers preferred) {done rest : List ℕ} {oldest : Option ℕ}
    (hpicked : Picked preferred t done oldest) (hstop : ∀ p ∈ rest, stop (t.sta p) = false)
    (hfresh : ∀ p ∈ rest, (t.sta p).expired lifetime cur = false) :
    ∃ o, UnassocTable.walk stop preferred lifetime cur rest oldest t = (t, o, none) ∧
      Picked preferred t (done ++ rest) o := by
  induction rest generalizing done oldest with
  | nil => exact ⟨oldest, rfl, by simpa using hpicked⟩
  | cons p rest ih =>
    have hstop' : ∀ q ∈ rest, stop (t.sta q) = false := fun q hq =>
      hstop q (List.mem_cons_of_mem _ hq)
    have hfresh' : ∀ q ∈ rest, (t.sta q).expired lifetime cur = false := fun q hq =>
      hfresh q (List.mem_cons_of_mem _ hq)
    have hsplit : done ++ p :: rest = (done ++ [p]) ++ rest := by simp
    unfold UnassocTable.walk
    rw [hstop p List.mem_cons_self, hfresh p List.mem_cons_self, if_neg Bool.false_ne_true,
      if_neg Bool.false_ne_true, hsplit]
    cases hint : (t.sta p).interested with
    | true =>
      rw [if_pos rfl]
      refine ih ?_ hstop' hfresh'
      cases oldest with
      | none =>
        intro q hq
        rcases List.mem_append.mp hq with hq | hq
        · exact hpicked q hq
        · rw [List.mem_singleton.mp hq]
          exact hint
      | some o =>
        obtain ⟨ho, hoint, hbest⟩ := hpicked
        refine ⟨List.mem_append_left _ ho, hoint, fun q hq hq' => ?_⟩
        rcases List.mem_append.mp hq with hq | hq
        · exact hbest q hq hq'
        · rw [List.mem_singleton.mp hq, hint] at hq'
          cases hq'
    | false =>
      rw [if_neg Bool.false_ne_true]
      exact ih (hpicked.snoc hpref hint) hstop' hfresh'

theorem insert_full (hfree : t.free = []) (s : UnassocSta) (o : ℕ) :
    t.insert s (t.allocOrEvict (some o)) =
      ⟨[], t.queue.erase o ++ [o],
        if s.interested then (t.delUnassocSta o).interestedCnt + 1
          else (t.delUnassocSta o).interestedCnt,
        Function.update t.sta o s⟩ := by
  have hfree' : (t.delUnassocSta o).free = o :: [] := free_delUnassocSta hfree
  rw [allocOrEvict_nil hfree, Option.elim_some, insert_alloc t hfree']
  rfl

theorem insert_full_none (hfree : t.free = []) (s : UnassocSta) :
    t.insert s (t.allocOrEvict none) = t := by
  rw [allocOrEvict_nil hfree]
  rfl

/-- **A received frame makes the oldest entry give way.** -/
theorem evictionLaw_rxAdd : EvictionLaw lifetime t
    (t.rxAddUnassocSta lifetime .all addr power cur) addr cur := by
  intro hfree hnew hfresh
  have hpref : Prefers fun new old : ℤ => decide (new < old) := by
    refine ⟨fun a => by simp, fun a b c hba hca => ?_⟩
    simp only [decide_eq_true_eq, decide_eq_false_iff_not, not_lt] at hba hca ⊢
    omega
  obtain ⟨o, hwalk, hpicked⟩ := @walk_whole lifetime cur t
    (fun s => s.addr = addr && (s.interested || UnassocMode.all = .all)) _ hpref [] t.queue none
    (fun q hq => absurd hq List.not_mem_nil) (fun p hp => by simp [hnew p hp]) hfresh
  unfold rxAddUnassocSta
  dsimp only
  rw [hwalk]
  dsimp only
  rw [if_neg (by simp)]
  cases o with
  | none =>
    refine .inl ⟨hpicked, ?_⟩
    exact insert_full_none hfree _
  | some o =>
    obtain ⟨ho, hoint, hbest⟩ := hpicked
    refine .inr ⟨o, ho, hoint, fun q hq hint => by simpa using hbest q hq hint, ?_⟩
    rw [insert_full hfree]
    refine ⟨rfl, ?_, fun q hq => Function.update_of_ne hq ..⟩
    dsimp only
    rw [Function.update_self]

/-- **Marking an address makes the newest entry give way**, so the oldest one does exactly where all
are of one age. -/
theorem evictionLaw_addInterested_iff : EvictionLaw lifetime t
    (t.addInterestedUnassocSta lifetime addr cur) addr cur ↔
      SameAge lifetime t (.addInterested addr cur) := by
  refine forall₃_congr fun hfree hnew hfresh => ?_
  have hpref : Prefers fun new old : ℤ => decide (old < new) := by
    refine ⟨fun a => by simp, fun a b c hba hca => ?_⟩
    simp only [decide_eq_true_eq, decide_eq_false_iff_not, not_lt] at hba hca ⊢
    omega
  obtain ⟨o, hwalk, hpicked⟩ := @walk_whole lifetime cur t (fun s => s.addr = addr) _ hpref []
    t.queue none (fun q hq => absurd hq List.not_mem_nil) (fun p hp => by simp [hnew p hp]) hfresh
  unfold addInterestedUnassocSta
  rw [hwalk]
  dsimp only
  cases o with
  | none =>
    rw [insert_full_none hfree]
    refine iff_of_true (.inl ⟨hpicked, rfl⟩) fun p hp hint => ?_
    exact absurd (hint.symm.trans (hpicked p hp)) Bool.false_ne_true
  | some o =>
    obtain ⟨ho, hoint, hbest⟩ := hpicked
    have hnewest : ∀ q ∈ t.queue, (t.sta q).interested = false →
        (t.sta q).time ≤ (t.sta o).time := fun q hq hint => by simpa using hbest q hq hint
    rw [insert_full hfree]
    constructor
    · rintro (⟨hall, -⟩ | ⟨o', ho', -, holdest, hqueue, -⟩) p hp hpint q hq hqint
      · exact absurd (hpint.symm.trans (hall p hp)) Bool.false_ne_true
      · obtain rfl : o = o' := (List.append_inj_right' hqueue rfl |> List.singleton_inj.mp)
        exact le_antisymm ((hnewest p hp hpint).trans (holdest q hq hqint))
          ((hnewest q hq hqint).trans (holdest p hp hpint))
    · intro hsame
      refine .inr ⟨o, ho, hoint, fun q hq hint => (hsame o ho hoint q hq hint).le, rfl, ?_,
        fun q hq => Function.update_of_ne hq ..⟩
      dsimp only
      rw [Function.update_self]

theorem stepEvicts_iff (e : UnassocOp) :
    StepEvicts lifetime t e (unassocStep lifetime t e) ↔ SameAge lifetime t e := by
  cases e with
  | rxAdd mode addr power cur =>
    refine iff_of_true (fun hmode => ?_) trivial
    subst hmode
    exact evictionLaw_rxAdd
  | addInterested addr cur => exact evictionLaw_addInterested_iff
  | undoInterested addr => exact Iff.rfl
  | undoAllInterested => exact Iff.rfl
  | del addr => exact Iff.rfl
  | delQueue => exact Iff.rfl

theorem sound_init (n : ℕ) : Sound n (.init n) := by
  refine ⟨?_, fun p hp => ?_, rfl⟩
  · rw [UnassocTable.init, List.append_nil]
  · cases hp

end Steps

def Lawful (lifetime : ℤ) (maxUnassocStaCnt : ℕ) (t : UnassocTable) (e : UnassocOp) : Prop :=
  Sound maxUnassocStaCnt t ∧ Sound maxUnassocStaCnt (unassocStep lifetime t e) ∧
    KeepsInterested t e (unassocStep lifetime t e) ∧
    StepEvicts lifetime t e (unassocStep lifetime t e)

theorem meets_lawful_iff {lifetime : ℤ} {n : ℕ} {t : UnassocTable} (h : Sound n t)
    (ops : List UnassocOp) :
    Transition.Meets (fun t e => some (unassocStep lifetime t e)) (Lawful lifetime n) t ops ↔
      Transition.Meets (fun t e => some (unassocStep lifetime t e)) (SameAge lifetime) t ops := by
  induction ops generalizing t with
  | nil => exact Iff.rfl
  | cons e ops ih =>
    obtain ⟨hsound, hkeeps⟩ := @sound_step n lifetime t h e
    have hlawful : Lawful lifetime n t e ↔ SameAge lifetime t e :=
      ⟨fun hl => (stepEvicts_iff e).mp hl.2.2.2,
        fun hs => ⟨h, hsound, hkeeps, (stepEvicts_iff e).mpr hs⟩⟩
    refine and_congr hlawful (forall₂_congr fun t' ht' => ?_)
    obtain rfl := Option.some.inj ht'
    exact ih hsound

/-- **The table of unassociated stations**: in every run every step is lawful exactly if the marking
of an address never has to choose between entries of different ages. -/
theorem unassocTable_iff (lifetime : ℤ) (maxUnassocStaCnt : ℕ) (ops : List UnassocOp) :
    Transition.Meets (fun t e => some (unassocStep lifetime t e))
        (Lawful lifetime maxUnassocStaCnt) (.init maxUnassocStaCnt) ops ↔
      Transition.Meets (fun t e => some (unassocStep lifetime t e)) (SameAge lifetime)
        (.init maxUnassocStaCnt) ops :=
  meets_lawful_iff (sound_init maxUnassocStaCnt) ops

def twoHeard : List UnassocOp :=
  [.rxAdd .all ⟨2, 0, 0, 0, 0, 1⟩ (-40) 1000, .rxAdd .all ⟨2, 0, 0, 0, 0, 2⟩ (-50) 2000,
    .addInterested ⟨2, 0, 0, 0, 0, 3⟩ 3000]

/-- **The one that was heard last gives way.** -/
theorem not_lawful_twoHeard : ¬ Transition.Meets (fun t e => some (unassocStep 60000 t e))
    (Lawful 60000 2) (.init 2) twoHeard := by
  rw [meets_lawful_iff (sound_init 2)]
  rintro ⟨-, hmeets⟩
  obtain ⟨-, hmeets⟩ := hmeets _ rfl
  obtain ⟨hsame, -⟩ := hmeets _ rfl
  have hages := hsame (by decide) (by decide) (by decide) 0 (by decide) (by decide) 1 (by decide)
    (by decide)
  exact absurd hages (by decide)

end Rtl88x2eu.Unassoc
