import Rtl88x2eu.Rm.System

/-!
# Objects in use

What holds of every run of the measurements in which requests get clock slots of their own: the
queue holds objects that are in use, every slot that is taken is that of its object, and no handler
uses an object that was freed.

## Main definitions

* `RmSound`

## Main results

* `runObj_cases`: a handler keeps its object's identity, or frees it in the last state
* `handlerRound_invariant`, `deinitLoop_invariant`: the rules of the two loops
* `RmSound.handlerRound`, `RmSound.timerCallback`, `RmSound.request`: every step keeps the objects
-/

namespace Rtl88x2eu.Rm

open Transition RmPriv RmLocal

/-! ## Objects in use -/

/-- The queue holds objects that are in use, and the slots are those of the objects. -/
structure RmSound (w : RmPriv) : Prop where
  nodup : w.rmQueue.Nodup
  live : ∀ id ∈ w.rmQueue, (w.obj id).isSome
  fresh : ∀ id, w.nextObj ≤ id → w.obj id = none
  slot : ∀ i < rmTimerNum, ∀ id ∈ (w.clock i).prm, ∃ o ∈ w.obj id, o.pclock = i
  own : ∀ id, ∀ o ∈ w.obj id, o.pclock < rmTimerNum ∧ (w.clock o.pclock).prm = some id
  master : ∀ id, ∀ o ∈ w.obj id, o.isMaster = true → o.q.Issuable
  fault : w.fault = false

section Sound

variable {w w' : RmPriv} {env : RmEnv} {ev : RmEvId} {prm : ℕ} {o o' : RmObj} {l : RmLocal}

/-- Steps that leave the objects and the queue as they are. -/
theorem RmSound.congr (h : RmSound w) (hobj : w'.obj = w.obj)
    (hclock : ∀ i, (w'.clock i).prm = (w.clock i).prm) (hqueue : w'.rmQueue = w.rmQueue)
    (hnext : w'.nextObj = w.nextObj) (hfault : w'.fault = w.fault) : RmSound w' where
  nodup := hqueue ▸ h.nodup
  live := by
    rw [hqueue, hobj]
    exact h.live
  fresh := by
    rw [hnext, hobj]
    exact h.fresh
  slot i hi id hid := by
    rw [hclock] at hid
    rw [hobj]
    exact h.slot i hi id hid
  own id o ho := by
    rw [hobj] at ho
    rw [hclock]
    exact h.own id o ho
  master := by
    rw [hobj]
    exact h.master
  fault := hfault.trans h.fault

/-- An object changes, but neither its slot nor its id. -/
theorem RmSound.update (h : RmSound w) (ho : w.obj prm = some o)
    (hobj : w'.obj = Function.update w.obj prm (some o')) (hpclock : o'.pclock = o.pclock)
    (hmaster : o'.isMaster = true → o'.q.Issuable)
    (hclock : ∀ i, (w'.clock i).prm = (w.clock i).prm) (hqueue : w'.rmQueue = w.rmQueue)
    (hnext : w'.nextObj = w.nextObj) (hfault : w'.fault = w.fault) : RmSound w' := by
  have hself : w'.obj prm = some o' := by rw [hobj, Function.update_self]
  have hother {id : ℕ} (hid : id ≠ prm) : w'.obj id = w.obj id := by
    rw [hobj, Function.update_of_ne hid]
  refine ⟨hqueue ▸ h.nodup, fun id hid => ?_, fun id hid => ?_, fun i hi id hid => ?_,
    fun id k hk => ?_, fun id k hk => ?_, hfault.trans h.fault⟩
  · rcases eq_or_ne id prm with rfl | hne
    · rw [hself]
      rfl
    · rw [hother hne]
      exact h.live id (hqueue ▸ hid)
  · have hfree := h.fresh id (hnext ▸ hid)
    rcases eq_or_ne id prm with rfl | hne
    · rw [ho] at hfree
      exact nomatch hfree
    · rwa [hother hne]
  · rw [hclock] at hid
    obtain ⟨k, hk, hki⟩ := h.slot i hi id hid
    rcases eq_or_ne id prm with rfl | hne
    · obtain rfl := Option.some.inj (ho.symm.trans hk)
      exact ⟨o', hself, hpclock.trans hki⟩
    · exact ⟨k, (hother hne).trans hk, hki⟩
  · rw [hclock]
    rcases eq_or_ne id prm with rfl | hne
    · obtain rfl := Option.some.inj (hself.symm.trans hk)
      rw [hpclock]
      exact h.own id o ho
    · exact h.own id k ((hother hne).symm.trans hk)
  · rcases eq_or_ne id prm with rfl | hne
    · obtain rfl := Option.some.inj (hself.symm.trans hk)
      exact hmaster
    · exact h.master id k ((hother hne).symm.trans hk)

end Sound

section Runs

variable {w w' : RmPriv} {env : RmEnv} {ev : RmEvId} {prm : ℕ} {o o' : RmObj} {l : RmLocal}

/-- **What a handler does to its object**: it keeps its identity, or is freed in the last state. -/
theorem runObj_cases (env : RmEnv) (ev : RmEvId) (ho : w.obj prm = some o)
    (hmaster : o.isMaster = true → o.q.Issuable) :
    (∃ l, w.runObj env ev prm = w.absorb prm l ∧ Enters (w.view o).core l) ∨
      o.state = .ended ∧ ev ≠ .stateIn ∧
        w.runObj env ev prm = w.absorb prm { (w.view o).note ev with freed := true } := by
  have hrun : w.runObj env ev prm = w.absorb prm (rmStateRun env (1 + 5) ev (w.view o)) := by
    unfold runObj
    rw [ho]
    rfl
  by_cases hst : o.state = .ended
  · have hended : rmStateRun env (1 + 5) ev (w.view o) = _ := rmStateRun_ended rfl hst
    rw [hrun, hended]
    by_cases hev : ev = .stateIn
    · rw [if_pos hev]
      exact .inl ⟨_, rfl, .of_core core_postEvent⟩
    · refine .inr ⟨hst, hev, ?_⟩
      have hcore : ((w.view o).note ev).core = (w.view o).core := core_note
      have hnote : ((w.view o).note ev).freed = false := congrArg RmCore.freed hcore
      rw [if_neg hev, rmFreeRmobj, hnote]
      rfl
  · exact .inl ⟨_, hrun, rmStateRun_enters ⟨rfl, hst⟩ rfl hmaster ev⟩

/-- A handler that leaves its object in use. -/
theorem RmSound.absorb (h : RmSound w) (ho : w.obj prm = some o)
    (hl : Enters (w.view o).core l) : RmSound (w.absorb prm l) := by
  obtain ⟨st, hcore⟩ := hl
  have hfreed : l.freed = false := congrArg RmCore.freed hcore
  have hfault : l.fault = false := congrArg RmCore.fault hcore
  have hpclock : l.prm.pclock = o.pclock := congrArg RmCore.pclock hcore
  have hrmid : l.prm.rmid = o.rmid := congrArg RmCore.rmid hcore
  have hq : l.prm.q = o.q := congrArg RmCore.q hcore
  unfold RmPriv.absorb
  dsimp only
  rw [hfreed, if_neg Bool.false_ne_true]
  refine h.update ho rfl hpclock ?_ (fun i => ?_) rfl rfl ?_
  · intro hm
    rw [hq]
    refine h.master prm o ho ?_
    rwa [RmObj.isMaster, hrmid] at hm
  · show (Function.update w.clock _ _ i).prm = _
    rcases eq_or_ne i l.prm.pclock with rfl | hne
    · rw [Function.update_self]
    · rw [Function.update_of_ne hne]
  · show (w.fault || l.fault) = w.fault
    rw [hfault, Bool.or_false]

/-- A handler that frees its object. -/
theorem RmSound.free (h : RmSound w) (ho : w.obj prm = some o) (hfreed : l.freed = true)
    (hfault : l.fault = false) (hpclock : l.prm.pclock = o.pclock) : RmSound (w.absorb prm l) := by
  unfold RmPriv.absorb
  dsimp only
  rw [hfreed, if_pos rfl]
  have hown := h.own prm o ho
  refine ⟨h.nodup.filter _, fun id hid => ?_, fun id hid => ?_, fun i hi id hid => ?_,
    fun id k hk => ?_, fun id k hk => ?_, ?_⟩
  · obtain ⟨hid, hne⟩ := List.mem_filter.mp hid
    show (Function.update w.obj prm none id).isSome = true
    rw [Function.update_of_ne (of_decide_eq_true hne)]
    exact h.live id hid
  · show Function.update w.obj prm none id = none
    rcases eq_or_ne id prm with rfl | hne
    · exact Function.update_self ..
    · rw [Function.update_of_ne hne]
      exact h.fresh id hid
  · replace hid : id ∈ (Function.update w.clock l.prm.pclock {} i).prm := hid
    show ∃ k ∈ Function.update w.obj prm none id, k.pclock = i
    rcases eq_or_ne i l.prm.pclock with rfl | hne
    · rw [Function.update_self] at hid
      exact nomatch hid
    · rw [Function.update_of_ne hne] at hid
      obtain ⟨k, hk, hki⟩ := h.slot i hi id hid
      have hidne : id ≠ prm := fun hidp => by
        subst hidp
        obtain rfl := Option.some.inj (ho.symm.trans hk)
        exact hne (hki.symm.trans hpclock.symm)
      exact ⟨k, (Function.update_of_ne hidne ..).trans hk, hki⟩
  · replace hk : Function.update w.obj prm none id = some k := hk
    show _ ∧ (Function.update w.clock l.prm.pclock {} k.pclock).prm = some id
    rcases eq_or_ne id prm with rfl | hne
    · rw [Function.update_self] at hk
      exact nomatch hk
    · rw [Function.update_of_ne hne] at hk
      have hkown := h.own id k hk
      have hclock : k.pclock ≠ l.prm.pclock := fun hkl => by
        rw [hkl, hpclock, hown.2] at hkown
        exact hne (Option.some.inj hkown.2).symm
      rw [Function.update_of_ne hclock]
      exact hkown
  · replace hk : Function.update w.obj prm none id = some k := hk
    rcases eq_or_ne id prm with rfl | hne
    · rw [Function.update_self] at hk
      exact nomatch hk
    · rw [Function.update_of_ne hne] at hk
      exact h.master id k hk
  · show (w.fault || l.fault) = false
    rw [hfault, Bool.or_false]
    exact h.fault

theorem RmSound.runObj (h : RmSound w) (ho : w.obj prm = some o) :
    RmSound (w.runObj env ev prm) := by
  rcases runObj_cases env ev ho (h.master prm o ho) with ⟨l, hrun, hl⟩ | ⟨-, -, hrun⟩
  · rw [hrun]
    exact h.absorb ho hl
  · rw [hrun]
    have hnote : ((w.view o).note ev).core = (w.view o).core := core_note
    exact h.free ho rfl (congrArg RmCore.fault hnote) (congrArg RmCore.pclock hnote)

theorem obj_absorb_of_ne {id : ℕ} (hid : id ≠ prm) : (w.absorb prm l).obj id = w.obj id := by
  unfold RmPriv.absorb
  dsimp only
  split_ifs <;> exact Function.update_of_ne hid ..

theorem obj_runObj_of_ne {id : ℕ} (hid : id ≠ prm) :
    (w.runObj env ev prm).obj id = w.obj id := by
  unfold RmPriv.runObj
  split
  · rfl
  · exact obj_absorb_of_ne hid

theorem RmSound.look_eq (h : RmSound w) : w.look = w := by
  have hany : (w.rmQueue.any fun prm => (w.obj prm).isNone) = false := by
    refine List.any_eq_false.mpr fun prm hprm => ?_
    rw [Option.isNone_iff_eq_none]
    exact Option.isSome_iff_ne_none.mp (h.live prm hprm)
  rw [RmPriv.look, hany, Bool.or_false]

theorem mem_of_rmGetRmobj {rmid : ℕ} (hget : w.rmGetRmobj rmid = some prm) :
    prm ∈ w.rmQueue ∧ ∃ o, w.obj prm = some o ∧ o.rmid = rmid := by
  unfold rmGetRmobj at hget
  split at hget
  · exact nomatch hget
  · refine ⟨List.mem_of_find?_eq_some hget, ?_⟩
    have hany := List.find?_some hget
    obtain ⟨o, ho, hrmid⟩ := (Option.any_eq_true _ _).mp hany
    exact ⟨o, ho, of_decide_eq_true hrmid⟩

theorem bcast_invariant {inv : RmPriv → Prop} (env : ℕ → RmEnv) (rmid : ℕ)
    (hrun : ∀ w prm o, inv w → w.obj prm = some o → inv (w.runObj (env prm) ev prm)) (h : inv w)
    (hs : RmSound w) : inv (w.rmBcastAidHandler env rmid ev) := by
  unfold rmBcastAidHandler
  have hlive := hs.live
  have hnodup := hs.nodup
  clear hs
  generalize w.rmQueue = ids at hlive hnodup ⊢
  induction ids generalizing w with
  | nil => exact h
  | cons prm ids ih =>
    obtain ⟨hnotMem, hnodup⟩ := List.nodup_cons.mp hnodup
    obtain ⟨o, ho⟩ := Option.isSome_iff_exists.mp (hlive prm List.mem_cons_self)
    rw [List.foldl_cons, ho]
    dsimp only
    split_ifs
    · refine ih (hrun w prm o h ho) (fun id hid => ?_) hnodup
      have hne : id ≠ prm := fun hidp => hnotMem (hidp ▸ hid)
      rw [obj_runObj_of_ne hne]
      exact hlive id (List.mem_cons_of_mem _ hid)
    · exact ih h (fun id hid => hlive id (List.mem_cons_of_mem _ hid)) hnodup

theorem handlerRound_invariant {inv : RmPriv → Prop} (env : ℕ → RmEnv)
    (hsound : ∀ w, inv w → RmSound w)
    (hquiet : ∀ w evQueue handling, inv w →
      inv { w with evQueue := evQueue, handling := handling })
    (hrun : ∀ w ev prm o, inv w → w.obj prm = some o → inv (w.runObj (env prm) ev prm))
    (h : inv w) : inv (w.rmHandlerRound env) := by
  unfold rmHandlerRound
  split
  · exact hquiet w w.evQueue false h
  · rename_i rmid evid rest _
    dsimp only
    have hrest : inv { w with evQueue := rest } := hquiet w rest w.handling h
    split_ifs
    · exact bcast_invariant env rmid (fun w => hrun w evid) hrest (hsound _ hrest)
    · rw [(hsound _ hrest).look_eq]
      split
      · exact hquiet w rest false h
      · rename_i prm hget
        obtain ⟨-, o, ho, -⟩ := mem_of_rmGetRmobj hget
        exact hrun _ evid prm o hrest ho

theorem rmPostEvent_eq (w : RmPriv) (rmid : ℕ) (ev : RmEvId) (cmd : Bool) :
    w.rmPostEvent rmid ev cmd =
      { w with cmdQueue := (w.rmPostEvent rmid ev cmd).cmdQueue } := by
  unfold RmPriv.rmPostEvent
  split <;> rfl

theorem tickSlot_eq (cmd : Bool) (w : RmPriv) (i : ℕ) :
    tickSlot cmd w i = { w with
      clock := (tickSlot cmd w i).clock, cmdQueue := (tickSlot cmd w i).cmdQueue
      fault := (tickSlot cmd w i).fault } := by
  unfold tickSlot
  dsimp only
  split
  · rfl
  · split_ifs
    · rfl
    · split
      · rfl
      · rw [rmPostEvent_eq]
        rfl
    · rfl

theorem rmTimerCallback_eq (w : RmPriv) (cmd : Bool) :
    w.rmTimerCallback cmd = { w with
      clock := (w.rmTimerCallback cmd).clock, cmdQueue := (w.rmTimerCallback cmd).cmdQueue
      fault := (w.rmTimerCallback cmd).fault } := by
  unfold rmTimerCallback
  generalize List.range rmTimerNum = is
  induction is generalizing w with
  | nil => rfl
  | cons i is ih =>
    rw [List.foldl_cons, ih, tickSlot_eq]

theorem RmSound.post (h : RmSound w) (rmid : ℕ) (ev : RmEvId) (cmd : Bool) :
    RmSound (w.rmPostEvent rmid ev cmd) := by
  unfold RmPriv.rmPostEvent
  split_ifs
  · exact h.congr rfl (fun _ => rfl) rfl rfl rfl
  · exact h

theorem RmSound.tickSlot (h : RmSound w) (cmd : Bool) {i : ℕ} (hi : i < rmTimerNum) :
    RmSound (RmPriv.tickSlot cmd w i) := by
  unfold RmPriv.tickSlot
  dsimp only
  split
  · exact h
  · rename_i prm hprm
    split_ifs with hzero hone
    · exact h
    all_goals
      have hset : RmSound
          (w.setClockSlot i { w.clock i with counter := (w.clock i).counter - 1 }) := by
        refine h.congr rfl (fun j => ?_) rfl rfl rfl
        show (Function.update w.clock i _ j).prm = _
        rcases eq_or_ne j i with rfl | hne
        · rw [Function.update_self]
        · rw [Function.update_of_ne hne]
    · obtain ⟨o, ho, -⟩ := h.slot i hi prm hprm
      have hobj : (w.setClockSlot i { w.clock i with
        counter := (w.clock i).counter - 1 }).obj prm = some o := ho
      rw [hobj]
      exact hset.post ..
    · exact hset

theorem RmSound.timerCallback (h : RmSound w) (cmd : Bool) : RmSound (w.rmTimerCallback cmd) := by
  unfold RmPriv.rmTimerCallback
  have hmem : ∀ i ∈ List.range rmTimerNum, i < rmTimerNum := fun i => List.mem_range.mp
  generalize List.range rmTimerNum = is at hmem ⊢
  induction is generalizing w with
  | nil => exact h
  | cons i is ih =>
    exact ih (h.tickSlot cmd (hmem i List.mem_cons_self)) fun j hj =>
      hmem j (List.mem_cons_of_mem _ hj)

/-! ### Requests -/

theorem freeSlot_eq_some {i : ℕ} (hfree : w.freeSlot = some i) :
    i < rmTimerNum ∧ (w.clock i).prm = none := by
  have hmem := List.mem_of_find?_eq_some hfree
  have hnone := List.find?_some hfree
  exact ⟨List.mem_range.mp hmem, Option.isNone_iff_eq_none.mp hnone⟩

def made (w : RmPriv) (rmid : ℕ) (q : RmMeasReq) (p : RmMeasRep) (reqStart : Option ℕ)
    (apChRpt : List ℕ) : RmPriv :=
  w.rmAllocRmobj.2.fillRmobj w.nextObj rmid q p reqStart apChRpt

theorem RmSound.alloc (h : RmSound w) (hfree : w.freeSlot ≠ none) :
    RmSound w.rmAllocRmobj.2 := by
  obtain ⟨i, hi⟩ := Option.ne_none_iff_exists'.mp hfree
  obtain ⟨hlt, hnone⟩ := freeSlot_eq_some hi
  have hfresh := h.fresh w.nextObj le_rfl
  have hslot : ({ w with nextObj := w.nextObj + 1 } : RmPriv).freeSlot = some i := hi
  simp only [rmAllocRmobj, hslot]
  have hne {id : ℕ} {o : RmObj} (ho : w.obj id = some o) : id ≠ w.nextObj := fun hid => by
    rw [hid, hfresh] at ho
    exact nomatch ho
  refine ⟨h.nodup, fun id hid => ?_, fun id hid => ?_, fun j hj id hid => ?_,
    fun id o ho => ?_, fun id o ho => ?_, h.fault⟩
  · obtain ⟨o, ho⟩ := Option.isSome_iff_exists.mp (h.live id hid)
    show (Function.update w.obj w.nextObj _ id).isSome = true
    rw [Function.update_of_ne (hne ho), ho]
    rfl
  · show Function.update w.obj w.nextObj _ id = none
    have hlt : w.nextObj + 1 ≤ id := hid
    rw [Function.update_of_ne (by omega)]
    exact h.fresh id (by omega)
  · replace hid : id ∈ (Function.update w.clock i { prm := some w.nextObj } j).prm := hid
    show ∃ o ∈ Function.update w.obj w.nextObj _ id, o.pclock = j
    rcases eq_or_ne j i with rfl | hji
    · rw [Function.update_self] at hid
      obtain rfl := Option.some.inj hid
      exact ⟨_, Function.update_self .., rfl⟩
    · rw [Function.update_of_ne hji] at hid
      obtain ⟨o, ho, hoj⟩ := h.slot j hj id hid
      exact ⟨o, (Function.update_of_ne (hne ho) ..).trans ho, hoj⟩
  · replace ho : Function.update w.obj w.nextObj _ id = some o := ho
    show _ ∧ (Function.update w.clock i { prm := some w.nextObj } o.pclock).prm = some id
    rcases eq_or_ne id w.nextObj with rfl | hid
    · rw [Function.update_self] at ho
      obtain rfl := Option.some.inj ho
      exact ⟨hlt, by rw [Function.update_self]⟩
    · rw [Function.update_of_ne hid] at ho
      obtain ⟨hlt', hown⟩ := h.own id o ho
      have hoi : o.pclock ≠ i := fun hoi => by
        rw [hoi, hnone] at hown
        exact nomatch hown
      exact ⟨hlt', by rw [Function.update_of_ne hoi, hown]⟩
  · replace ho : Function.update w.obj w.nextObj _ id = some o := ho
    rcases eq_or_ne id w.nextObj with rfl | hid
    · rw [Function.update_self] at ho
      obtain rfl := Option.some.inj ho
      exact fun hm => nomatch hm
    · rw [Function.update_of_ne hid] at ho
      exact h.master id o ho

/-- The slot of a new object is the one that was free. -/
theorem obj_alloc (w : RmPriv) : ∃ i, w.rmAllocRmobj.2.obj w.nextObj = some { pclock := i } := by
  unfold rmAllocRmobj
  dsimp only
  split
  · exact ⟨_, Function.update_self ..⟩
  · exact ⟨_, Function.update_self ..⟩

theorem fst_rmAllocRmobj (w : RmPriv) : w.rmAllocRmobj.1 = w.nextObj := by
  unfold rmAllocRmobj
  dsimp only
  split <;> rfl

theorem rmQueue_alloc (w : RmPriv) : w.rmAllocRmobj.2.rmQueue = w.rmQueue := by
  unfold rmAllocRmobj
  dsimp only
  split <;> rfl

theorem RmSound.fill (h : RmSound w) (hfree : w.freeSlot ≠ none) {rmid : ℕ} {q : RmMeasReq}
    {p : RmMeasRep} {reqStart : Option ℕ} {apChRpt : List ℕ}
    (hmaster : rmid % 2 = 1 → q.Issuable) : RmSound (made w rmid q p reqStart apChRpt) := by
  obtain ⟨i, hobj⟩ := obj_alloc w
  unfold made fillRmobj
  rw [hobj]
  exact (h.alloc hfree).update hobj rfl rfl (fun hm => hmaster (of_decide_eq_true hm))
    (fun _ => rfl) rfl rfl rfl

theorem RmSound.enqueue (h : RmSound w) {rmid : ℕ} {cmd : Bool} (hlive : (w.obj prm).isSome)
    (hqueue : prm ∉ w.rmQueue) : RmSound (w.rmEnqueueRmobj prm rmid cmd) := by
  have happend : RmSound { w with rmQueue := w.rmQueue ++ [prm] } := by
    refine ⟨?_, fun id hid => ?_, h.fresh, h.slot, h.own, h.master, h.fault⟩
    · exact List.nodup_append.mpr ⟨h.nodup, List.pairwise_singleton ..,
        fun a ha b hb hab => hqueue (List.mem_singleton.mp hb ▸ hab ▸ ha)⟩
    · rcases List.mem_append.mp hid with hid | hid
      · exact h.live id hid
      · exact List.mem_singleton.mp hid ▸ hlive
  exact happend.post ..

theorem made_notMem (h : RmSound w) : w.nextObj ∉ w.rmQueue := fun hmem => by
  have hlive := h.live _ hmem
  rw [h.fresh _ le_rfl] at hlive
  exact nomatch hlive

theorem obj_made (w : RmPriv) (rmid : ℕ) (q : RmMeasReq) (p : RmMeasRep) (reqStart : Option ℕ)
    (apChRpt : List ℕ) : ∃ i, (made w rmid q p reqStart apChRpt).obj w.nextObj = some
      { pclock := i, rmid := rmid, q := q, p := p, reqStart := reqStart, apChRpt := apChRpt } := by
  obtain ⟨i, hobj⟩ := obj_alloc w
  unfold made fillRmobj
  rw [hobj]
  exact ⟨i, Function.update_self ..⟩

/-- A request that is queued. -/
theorem RmSound.request (h : RmSound w) (hfree : w.freeSlot ≠ none) {rmid : ℕ} {q : RmMeasReq}
    {p : RmMeasRep} {reqStart : Option ℕ} {apChRpt : List ℕ} {cmd : Bool}
    (hmaster : rmid % 2 = 1 → q.Issuable)
    (hobj : w'.obj = (made w rmid q p reqStart apChRpt).obj)
    (hclock : w'.clock = (made w rmid q p reqStart apChRpt).clock)
    (hqueue : w'.rmQueue = w.rmAllocRmobj.2.rmQueue)
    (hnext : w'.nextObj = w.rmAllocRmobj.2.nextObj) (hfault : w'.fault = w.rmAllocRmobj.2.fault) :
    RmSound (w'.rmEnqueueRmobj w.nextObj rmid cmd) := by
  have hmade : RmSound (made w rmid q p reqStart apChRpt) := h.fill hfree hmaster
  refine RmSound.enqueue (hmade.congr hobj (fun i => by rw [hclock]) hqueue hnext hfault) ?_ ?_
  · obtain ⟨i, hi⟩ := obj_made w rmid q p reqStart apChRpt
    rw [hobj, hi]
    rfl
  · rw [hqueue, rmQueue_alloc]
    exact made_notMem h

theorem rmGenRmid_slave (aid diagToken : ℕ) : ¬rmGenRmid aid diagToken 0 % 2 = 1 := by
  unfold rmGenRmid
  intro hodd
  split_ifs at hodd
  omega

theorem RmSound.radioReq (h : RmSound w) (hfree : w.freeSlot ≠ none) (r : RadioReq) (cmd : Bool) :
    RmSound (w.rmRecvRadioMensReq r cmd) := by
  have hslave := rmGenRmid_slave r.aid r.diagToken
  unfold rmRecvRadioMensReq
  dsimp only
  split
  · rw [fst_rmAllocRmobj]
    exact h.fill hfree fun hm => absurd hm hslave
  · rw [fst_rmAllocRmobj]
    exact h.request hfree (fun hm => absurd hm hslave) rfl rfl rfl rfl rfl

theorem RmSound.linkReq (h : RmSound w) (hfree : w.freeSlot ≠ none) (aid diagToken : ℕ)
    (cmd : Bool) : RmSound (w.rmRecvLinkMensReq aid diagToken cmd) := by
  have hslave := rmGenRmid_slave aid diagToken
  unfold rmRecvLinkMensReq
  dsimp only
  rw [fst_rmAllocRmobj]
  exact h.request hfree (fun hm => absurd hm hslave) rfl rfl rfl rfl rfl

theorem RmSound.nbReq (h : RmSound w) (hfree : w.freeSlot ≠ none) (aid : ℕ) (cmd : Bool) :
    RmSound (w.rmAddNbReq aid cmd) := by
  unfold rmAddNbReq
  dsimp only
  rw [fst_rmAllocRmobj]
  exact h.request hfree (fun _ => .inr (.inl rfl)) rfl rfl rfl rfl rfl

theorem cancel_of_ended (ho : w.obj prm = some o) (hst : o.state = .ended) :
    (w.runObj env .cancel prm).rmQueue = w.rmQueue.filter (· ≠ prm) ∧
      (w.runObj env .cancel prm).evQueue = w.evQueue := by
  have hended : rmStateRun env (1 + 5) .cancel (w.view o) = _ := rmStateRun_ended rfl hst
  have hfree : w.runObj env .cancel prm = w.absorb prm ((w.view o).note .cancel).rmFreeRmobj := by
    unfold RmPriv.runObj
    rw [ho]
    exact congrArg (w.absorb prm) hended
  rw [hfree]
  exact ⟨rfl, List.append_nil _⟩

theorem cancel_of_active (ho : w.obj prm = some o) (hst : o.state ≠ .ended) :
    (w.runObj env .cancel prm).rmQueue = w.rmQueue ∧
      (∃ k, (w.runObj env .cancel prm).obj prm = some k ∧ k.state = .ended) ∧
      (env.evMalloc = false ∨ o.rmid = 0 → (w.runObj env .cancel prm).evQueue = w.evQueue) := by
  obtain ⟨k, hcore, hevents, hk⟩ :=
    (rmStateRun_cancel ⟨rfl, hst⟩ rfl : ∃ k : RmLocal, k.core = (w.view o).core ∧ _ ∧
      rmStateRun env (1 + 5) .cancel (w.view o) = _)
  have hrun : w.runObj env .cancel prm =
      w.absorb prm ((k.cancelClock.enter .ended).postEvent env .stateOut) := by
    unfold RmPriv.runObj
    rw [ho]
    exact congrArg (w.absorb prm) hk
  have hpost : ((k.cancelClock.enter .ended).postEvent env .stateOut).core =
      (w.view o).core.enter .ended := by
    rw [core_postEvent, core_enter, core_cancelClock, hcore]
  have hfreed : ((k.cancelClock.enter .ended).postEvent env .stateOut).freed = false :=
    congrArg RmCore.freed hpost
  rw [hrun]
  unfold RmPriv.absorb
  dsimp only
  rw [hfreed, if_neg Bool.false_ne_true]
  refine ⟨rfl, ⟨_, Function.update_self .., congrArg RmCore.state hpost⟩, fun hquiet => ?_⟩
  have hrmid : (k.cancelClock.enter .ended).prm.rmid = o.rmid := congrArg RmCore.rmid hcore
  have hnone : ((k.cancelClock.enter .ended).postEvent env .stateOut).events = [] := by
    unfold postEvent
    rw [if_pos (.inr (hquiet.symm.imp hrmid.trans id))]
    exact hevents
  show w.evQueue ++ _ = w.evQueue
  rw [hnone, List.append_nil]

/-- **The shutdown ends**: two rounds for each object are enough. -/
theorem deinitLoop_invariant (inv : RmPriv → Prop) (env : ℕ → RmEnv)
    (hsound : ∀ w, inv w → RmSound w)
    (hrun : ∀ w prm o, inv w → w.obj prm = some o → inv (w.runObj (env prm) .cancel prm))
    {n : ℕ} (h : inv w) (hn : 2 * w.rmQueue.length ≤ n) :
    inv (deinitLoop env n w) ∧ (deinitLoop env n w).rmQueue = [] := by
  generalize hids : w.rmQueue = ids at hn
  induction ids generalizing w n with
  | nil =>
    have hend : deinitLoop env n w = w := by
      cases n with
      | zero => rfl
      | succ n => simp only [deinitLoop, hids]
    rw [hend]
    exact ⟨h, hids⟩
  | cons prm ids ih =>
    obtain ⟨n, rfl⟩ : ∃ m, n = m + 2 := ⟨n - 2, by simp only [List.length_cons] at hn; omega⟩
    rw [List.length_cons] at hn
    have hs := hsound w h
    have hmem : prm ∈ w.rmQueue := hids ▸ List.mem_cons_self
    have hfilter : w.rmQueue.filter (· ≠ prm) = ids := by
      have hnodup := hs.nodup
      rw [hids] at hnodup ⊢
      have hnotMem := (List.nodup_cons.mp hnodup).1
      rw [List.filter_cons_of_neg (by simp)]
      exact List.filter_eq_self.mpr fun a ha => decide_eq_true fun hap => hnotMem (hap ▸ ha)
    obtain ⟨o, ho⟩ := Option.isSome_iff_exists.mp (hs.live prm hmem)
    have hround (w : RmPriv) (m : ℕ) (hids : w.rmQueue = prm :: ids) :
        deinitLoop env (m + 1) w = deinitLoop env m (w.runObj (env prm) .cancel prm) := by
      simp only [deinitLoop, hids]
    rw [hround w (n + 1) hids]
    by_cases hst : o.state = .ended
    · obtain ⟨hqueue, -⟩ := cancel_of_ended ho hst
      exact ih (hrun w prm o h ho) (hqueue.trans hfilter) (by omega)
    · obtain ⟨hqueue, ⟨k, hk, hended⟩, -⟩ := cancel_of_active ho hst
      have h' := hrun w prm o h ho
      have hids' := hqueue.trans hids
      rw [hround _ n hids']
      obtain ⟨hqueue', -⟩ := cancel_of_ended hk hended
      exact ih (hrun _ prm k h' hk) (hqueue'.trans (hqueue ▸ hfilter)) (by omega)

end Runs

end Rtl88x2eu.Rm
