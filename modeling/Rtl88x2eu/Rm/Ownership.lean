import Rtl88x2eu.Rm.Sound

/-!
# Measurements are owned and freed once

Every object stands in the queue of measurements from its request to its last event, and has a clock
slot of its own. Nothing of it is used after it is freed, and nothing that its request made is left
behind. This fails where more requests come than there are slots, where a request is refused after
its object was made, where a beacon request has what `rm_free_rmobj` does not free, and where the
module is shut down while measurements are under way.

## Main definitions

* `RmOwned`, `RmOwnOk`

## Main results

* `rmOwned_of_run`: ownership is kept in every run whose steps meet the condition
* `not_rmOwned`: the four ways in which it is lost
-/

namespace Rtl88x2eu.Rm

open Transition RmPriv RmLocal

def RmObj.blocks (o : RmObj) : List ℕ := o.reqStart.toList ++ o.apChRpt

/-- Objects are in the queue once, own their slots and the memory of their requests, are not used
after they are freed, and are all gone after a shutdown. -/
structure RmOwned (w : RmPriv) : Prop where
  queued : ∀ id, (w.obj id).isSome ↔ id ∈ w.rmQueue
  nodup : w.rmQueue.Nodup
  fault : w.fault = false
  slot : ∀ i < rmTimerNum, ∀ id ∈ (w.clock i).prm, ∃ o ∈ w.obj id, o.pclock = i
  own : ∀ id, ∀ o ∈ w.obj id, o.pclock < rmTimerNum ∧ (w.clock o.pclock).prm = some id
  blocks : ∀ b ∈ w.blocks, ∃ id, ∃ o ∈ w.obj id, b ∈ o.blocks
  deinits : ∀ b ∈ w.deinits, b = true

/-- The step `e` does not go wrong. -/
def RmOwnOk (w : RmPriv) : RmEvent → Prop
  | .radioReq r malloc _ => malloc = true →
      w.freeSlot ≠ none ∧ r.eId = 38 ∧ (r.parsed w).blocks = (r.parsed w).reqStart.toList
  | .linkReq _ _ malloc _ | .addNbReq _ malloc _ => malloc = true → w.freeSlot ≠ none
  | .deinit env => ∀ prm ∈ w.rmQueue, ∀ o ∈ w.obj prm,
      o.state = .ended ∨ (env prm).evMalloc = false ∨ o.rmid = 0
  | _ => True

/-! ## The invariant -/

/-- Every object is in the queue, what is allocated is what a live object will free, and every
shutdown was complete. -/
structure RmKept (w : RmPriv) : Prop extends RmSound w where
  queued : ∀ id, (w.obj id).isSome → id ∈ w.rmQueue
  blocks : ∀ b ∈ w.blocks, ∃ id, ∃ o ∈ w.obj id, o.reqStart = some b
  deinits : ∀ b ∈ w.deinits, b = true

section Steps

variable {w w' : RmPriv} {env : RmEnv} {ev : RmEvId} {prm : ℕ} {o o' : RmObj} {l : RmLocal}

theorem RmKept.owned (h : RmKept w) : RmOwned w where
  queued id := ⟨h.queued id, h.live id⟩
  nodup := h.nodup
  fault := h.fault
  slot := h.slot
  own := h.own
  blocks b hb := by
    obtain ⟨id, o, ho, hreq⟩ := h.blocks b hb
    refine ⟨id, o, ho, List.mem_append_left _ ?_⟩
    rw [hreq]
    exact List.mem_singleton_self b
  deinits := h.deinits

theorem RmKept.congr (h : RmKept w) (hs : RmSound w') (hobj : w'.obj = w.obj)
    (hqueue : w'.rmQueue = w.rmQueue) (hblocks : w'.blocks = w.blocks)
    (hdeinits : w'.deinits = w.deinits) : RmKept w' where
  toRmSound := hs
  queued := by
    rw [hobj, hqueue]
    exact h.queued
  blocks := by
    rw [hobj, hblocks]
    exact h.blocks
  deinits := hdeinits ▸ h.deinits

/-- An object changes, but not what it will free. -/
theorem RmKept.update (h : RmKept w) (hs : RmSound w') (ho : w.obj prm = some o)
    (hobj : w'.obj = Function.update w.obj prm (some o')) (hreq : o'.reqStart = o.reqStart)
    (hqueue : w'.rmQueue = w.rmQueue) (hblocks : w'.blocks = w.blocks)
    (hdeinits : w'.deinits = w.deinits) : RmKept w' := by
  refine ⟨hs, fun id hid => ?_, fun b hb => ?_, hdeinits ▸ h.deinits⟩
  · rw [hqueue]
    rw [hobj] at hid
    rcases eq_or_ne id prm with rfl | hne
    · exact h.queued id (Option.isSome_of_eq_some ho)
    · rw [Function.update_of_ne hne] at hid
      exact h.queued id hid
  · obtain ⟨id, k, hk, hkb⟩ := h.blocks b (hblocks ▸ hb)
    rw [hobj]
    rcases eq_or_ne id prm with rfl | hne
    · obtain rfl := Option.some.inj (ho.symm.trans hk)
      exact ⟨id, o', Function.update_self .., hreq.trans hkb⟩
    · exact ⟨id, k, (Function.update_of_ne hne ..).trans hk, hkb⟩

theorem RmKept.runObj (h : RmKept w) (ho : w.obj prm = some o) :
    RmKept (w.runObj env ev prm) := by
  have hs : RmSound (w.runObj env ev prm) := h.toRmSound.runObj ho
  rcases runObj_cases env ev ho (h.master prm o ho) with ⟨l, hrun, st, hcore⟩ | ⟨-, -, hrun⟩
  · have hfreed : l.freed = false := congrArg RmCore.freed hcore
    have hreq : l.prm.reqStart = o.reqStart := congrArg RmCore.reqStart hcore
    rw [hrun] at hs ⊢
    unfold RmPriv.absorb at hs ⊢
    dsimp only at hs ⊢
    rw [hfreed, if_neg Bool.false_ne_true] at hs ⊢
    exact h.update hs ho rfl hreq rfl rfl rfl
  · rw [hrun] at hs ⊢
    have hnote : ((w.view o).note ev).core = (w.view o).core := core_note
    have hreq : ((w.view o).note ev).prm.reqStart = o.reqStart := congrArg RmCore.reqStart hnote
    refine ⟨hs, fun id hid => ?_, fun b hb => ?_, h.deinits⟩
    · have hne : id ≠ prm := fun hidp => by
        subst hidp
        have hnone : (w.absorb id { (w.view o).note ev with freed := true }).obj id = none :=
          Function.update_self ..
        rw [hnone] at hid
        exact nomatch hid
      rw [obj_absorb_of_ne hne] at hid
      exact List.mem_filter.mpr ⟨h.queued id hid, decide_eq_true hne⟩
    · obtain ⟨hb, hreleased⟩ := List.mem_filter.mp hb
      obtain ⟨id, k, hk, hkb⟩ := h.blocks b hb
      have hne : id ≠ prm := fun hidp => by
        subst hidp
        obtain rfl := Option.some.inj (ho.symm.trans hk)
        refine of_decide_eq_true hreleased ?_
        show b ∈ ((w.view o).note ev).prm.reqStart.toList
        rw [hreq, hkb]
        exact List.mem_singleton_self b
      exact ⟨id, k, (obj_absorb_of_ne hne).trans hk, hkb⟩

/-- A step that neither makes nor frees anything. -/
theorem RmKept.post (h : RmKept w) (rmid : ℕ) (ev : RmEvId) (cmd : Bool) :
    RmKept (w.rmPostEvent rmid ev cmd) := by
  have hs := h.toRmSound.post rmid ev cmd
  unfold RmPriv.rmPostEvent at hs ⊢
  split at hs <;> rename_i hcmd
  · rw [if_pos hcmd]
    exact h.congr hs rfl rfl rfl rfl
  · rw [if_neg hcmd]
    exact h

theorem RmKept.recvRep (h : RmKept w) (aid diagToken : ℕ) (rep : RmMeasRep) (cmd : Bool) :
    RmKept (w.rmRecvRep aid diagToken rep cmd) := by
  rw [rmRecvRep, h.look_eq]
  split
  · exact h
  · rename_i prm hget
    obtain ⟨-, o, ho, -⟩ := mem_of_rmGetRmobj hget
    have hstore : RmKept (w.setObj prm ((w.obj prm).map fun o =>
        { o with p := o.p.recv diagToken rep })) := by
      rw [ho]
      exact h.update (h.toRmSound.update ho rfl rfl (h.master prm o ho) (fun _ => rfl) rfl rfl rfl)
        ho rfl rfl rfl rfl rfl
    split_ifs
    · exact hstore
    · exact hstore.post ..
    · exact h

theorem RmKept.timerCallback (h : RmKept w) (cmd : Bool) : RmKept (w.rmTimerCallback cmd) := by
  have hs := h.toRmSound.timerCallback cmd
  rw [rmTimerCallback_eq] at hs ⊢
  exact h.congr hs rfl rfl rfl rfl

theorem RmKept.handlerRound (h : RmKept w) (env : ℕ → RmEnv) : RmKept (w.rmHandlerRound env) :=
  handlerRound_invariant env (fun _ => RmKept.toRmSound)
    (fun _ _ _ h => h.congr (h.toRmSound.congr rfl (fun _ => rfl) rfl rfl rfl) rfl rfl rfl rfl)
    (fun _ _ _ _ h ho => h.runObj ho) h

/-- A new object in the queue, with what its parser allocated. -/
theorem RmKept.request (h : RmKept w) {rmid : ℕ} {q : RmMeasReq} {p : RmMeasRep}
    {reqStart : Option ℕ} {apChRpt : List ℕ} {cmd : Bool}
    (hs : RmSound (w'.rmEnqueueRmobj w.nextObj rmid cmd))
    (hobj : w'.obj = (made w rmid q p reqStart apChRpt).obj)
    (hqueue : w'.rmQueue = w.rmAllocRmobj.2.rmQueue)
    (hblocks : w'.blocks = w.rmAllocRmobj.2.blocks ++ reqStart.toList)
    (hdeinits : w'.deinits = w.rmAllocRmobj.2.deinits) :
    RmKept (w'.rmEnqueueRmobj w.nextObj rmid cmd) := by
  obtain ⟨i, hi⟩ := obj_made w rmid q p reqStart apChRpt
  have hother {id : ℕ} (hid : id ≠ w.nextObj) :
      (made w rmid q p reqStart apChRpt).obj id = w.obj id := by
    unfold made fillRmobj rmAllocRmobj
    dsimp only
    split <;> simp [setObj, setClockSlot, hid]
  have halloc : w.rmAllocRmobj.2.blocks = w.blocks ∧ w.rmAllocRmobj.2.deinits = w.deinits := by
    unfold rmAllocRmobj
    dsimp only
    split <;> exact ⟨rfl, rfl⟩
  unfold rmEnqueueRmobj at hs ⊢
  rw [rmPostEvent_eq] at hs ⊢
  refine ⟨hs, fun id hid => ?_, fun b hb => ?_, ?_⟩
  · replace hid : (w'.obj id).isSome = true := hid
    show id ∈ w'.rmQueue ++ [w.nextObj]
    rw [hobj] at hid
    rw [hqueue, rmQueue_alloc]
    rcases eq_or_ne id w.nextObj with rfl | hne
    · exact List.mem_append_right _ (List.mem_singleton_self _)
    · rw [hother hne] at hid
      exact List.mem_append_left _ (h.queued id hid)
  · replace hb : b ∈ w'.blocks := hb
    show ∃ id, ∃ o ∈ w'.obj id, o.reqStart = some b
    rw [hblocks, halloc.1] at hb
    rw [hobj]
    rcases List.mem_append.mp hb with hb | hb
    · obtain ⟨id, o, ho, hreq⟩ := h.blocks b hb
      have hne : id ≠ w.nextObj := fun hid => by
        rw [hid, h.fresh _ le_rfl] at ho
        exact nomatch ho
      exact ⟨id, o, (hother hne).trans ho, hreq⟩
    · exact ⟨w.nextObj, _, hi, Option.mem_toList.mp hb⟩
  · show ∀ b ∈ w'.deinits, b = true
    rw [hdeinits, halloc.2]
    exact h.deinits

theorem parsed_alloc (w : RmPriv) (r : RadioReq) : r.parsed w.rmAllocRmobj.2 = r.parsed w := by
  unfold rmAllocRmobj
  dsimp only
  split <;> rfl

theorem RmKept.radioReq (h : RmKept w) {r : RadioReq} {cmd : Bool}
    (hok : w.freeSlot ≠ none ∧ r.eId = 38 ∧ (r.parsed w).blocks = (r.parsed w).reqStart.toList) :
    RmKept (w.rmRecvRadioMensReq r cmd) := by
  have hs := h.toRmSound.radioReq hok.1 r cmd
  have hblocks := hok.2.2
  rw [← parsed_alloc] at hblocks
  unfold rmRecvRadioMensReq at hs ⊢
  dsimp only at hs ⊢
  rw [if_neg (not_not.mpr hok.2.1), fst_rmAllocRmobj] at hs ⊢
  exact h.request hs rfl rfl (congrArg (w.rmAllocRmobj.2.blocks ++ ·) hblocks) rfl

theorem RmKept.linkReq (h : RmKept w) (hfree : w.freeSlot ≠ none) (aid diagToken : ℕ)
    (cmd : Bool) : RmKept (w.rmRecvLinkMensReq aid diagToken cmd) := by
  have hs := h.toRmSound.linkReq hfree aid diagToken cmd
  unfold rmRecvLinkMensReq at hs ⊢
  dsimp only at hs ⊢
  rw [fst_rmAllocRmobj] at hs ⊢
  exact h.request hs rfl rfl (List.append_nil _).symm rfl

theorem RmKept.nbReq (h : RmKept w) (hfree : w.freeSlot ≠ none) (aid : ℕ) (cmd : Bool) :
    RmKept (w.rmAddNbReq aid cmd) := by
  have hs := h.toRmSound.nbReq hfree aid cmd
  unfold rmAddNbReq at hs ⊢
  dsimp only at hs ⊢
  rw [fst_rmAllocRmobj] at hs ⊢
  exact h.request hs rfl rfl (List.append_nil _).symm rfl

/-- Measurements that are shut down without a trace. -/
def Quiet (env : ℕ → RmEnv) (w : RmPriv) : Prop :=
  ∀ prm ∈ w.rmQueue, ∀ o ∈ w.obj prm,
    o.state = .ended ∨ (env prm).evMalloc = false ∨ o.rmid = 0

/-- **A shutdown ends with both queues empty** if it finds the measurements quiet. -/
theorem RmKept.deinit (h : RmKept w) (env : ℕ → RmEnv) (hquiet : Quiet env w) :
    RmKept (w.rtwDeinitRm env) := by
  have hstart : RmKept { w with enable := false, evQueue := [] } :=
    h.congr (h.toRmSound.congr rfl (fun _ => rfl) rfl rfl rfl) rfl rfl rfl rfl
  have hrun (w : RmPriv) (prm : ℕ) (o : RmObj) (hw : RmKept w ∧ w.evQueue = [] ∧ Quiet env w)
      (ho : w.obj prm = some o) : RmKept (w.runObj (env prm) .cancel prm) ∧
        (w.runObj (env prm) .cancel prm).evQueue = [] ∧
        Quiet env (w.runObj (env prm) .cancel prm) := by
    obtain ⟨h, hev, hquiet⟩ := hw
    have hprm := h.queued prm (Option.isSome_of_eq_some ho)
    refine ⟨h.runObj ho, ?_, fun id hid k hk => ?_⟩
    · by_cases hst : o.state = .ended
      · exact (cancel_of_ended ho hst).2.trans hev
      · exact ((cancel_of_active ho hst).2.2 ((hquiet prm hprm o ho).resolve_left hst)).trans hev
    · rcases eq_or_ne id prm with rfl | hne
      · by_cases hst : o.state = .ended
        · rw [(cancel_of_ended ho hst).1] at hid
          exact absurd rfl (of_decide_eq_true (List.mem_filter.mp hid).2)
        · obtain ⟨-, ⟨k', hk', hended⟩, -⟩ := cancel_of_active ho hst
          obtain rfl := Option.some.inj (hk'.symm.trans hk)
          exact .inl hended
      · rw [obj_runObj_of_ne hne] at hk
        have hlive := h.queued id (Option.isSome_of_eq_some hk)
        exact hquiet id hlive k hk
  obtain ⟨⟨hkept, hev, -⟩, hqueue⟩ := deinitLoop_invariant
    (fun w => RmKept w ∧ w.evQueue = [] ∧ Quiet env w) env (fun _ h => h.1.toRmSound) hrun
    ⟨hstart, rfl, hquiet⟩ le_rfl
  unfold rtwDeinitRm
  dsimp only
  generalize deinitLoop env _ _ = w' at hkept hev hqueue ⊢
  refine ⟨hkept.toRmSound.congr rfl (fun _ => rfl) rfl rfl rfl, hkept.queued, hkept.blocks,
    fun b hb => ?_⟩
  rcases List.mem_append.mp hb with hb | hb
  · exact hkept.deinits b hb
  · rw [List.mem_singleton.mp hb, hev, hqueue]
    rfl

theorem RmKept.step (h : RmKept w) {e : RmEvent} (hok : RmOwnOk w e)
    (hstep : rmStep w e = some w') : RmKept w' := by
  have hfault : ¬w.fault = true := Bool.eq_false_iff.mp h.fault
  unfold rmStep at hstep
  rw [if_neg hfault] at hstep
  cases e with
  | radioReq r malloc cmd =>
    obtain rfl := Option.some.inj hstep
    cases malloc with
    | false => exact h
    | true => exact h.radioReq (hok rfl)
  | linkReq aid diagToken malloc cmd =>
    obtain rfl := Option.some.inj hstep
    cases malloc with
    | false => exact h
    | true => exact h.linkReq (hok rfl) aid diagToken cmd
  | addNbReq aid malloc cmd =>
    obtain rfl := Option.some.inj hstep
    cases malloc with
    | false => exact h
    | true => exact h.nbReq (hok rfl) aid cmd
  | recvRep aid diagToken rep cmd =>
    obtain rfl := Option.some.inj hstep
    exact h.recvRep aid diagToken rep cmd
  | post rmid evid cmd =>
    obtain rfl := Option.some.inj hstep
    exact h.post rmid evid cmd
  | surveyDone k cmd =>
    obtain ⟨token, -, rfl⟩ := Option.map_eq_some_iff.mp hstep
    have herase : RmKept { w with surveys := w.surveys.eraseIdx k } :=
      h.congr (h.toRmSound.congr rfl (fun _ => rfl) rfl rfl rfl) rfl rfl rfl rfl
    dsimp only
    split_ifs
    · exact herase
    · exact herase.post ..
  | hdl k malloc =>
    dsimp only at hstep
    split at hstep
    · exact nomatch hstep
    · obtain ⟨e, -, rfl⟩ := Option.map_eq_some_iff.mp hstep
      unfold rmPostEventHdl
      dsimp only
      split_ifs <;>
        exact h.congr (h.toRmSound.congr rfl (fun _ => rfl) rfl rfl rfl) rfl rfl rfl rfl
  | round env =>
    obtain ⟨-, hstep⟩ := Option.ite_none_right_eq_some.mp hstep
    obtain rfl := Option.some.inj hstep
    exact h.handlerRound env
  | tick cmd =>
    obtain ⟨-, hstep⟩ := Option.ite_none_right_eq_some.mp hstep
    obtain rfl := Option.some.inj hstep
    exact h.timerCallback cmd
  | deinit env =>
    dsimp only at hstep
    split at hstep
    · exact nomatch hstep
    · obtain rfl := Option.some.inj hstep
      exact h.deinit env hok

end Steps

def rtwInitRm (enCap : ℕ → Bool) (dialogToken : ℕ) : RmPriv :=
  { enCap := enCap, dialogToken := dialogToken }

theorem rmSound_init (enCap : ℕ → Bool) (dialogToken : ℕ) :
    RmSound (rtwInitRm enCap dialogToken) :=
  ⟨List.nodup_nil, fun _ hid => absurd hid List.not_mem_nil, fun _ _ => rfl,
    fun _ _ _ => (nomatch ·), fun _ _ => (nomatch ·), fun _ _ => (nomatch ·), rfl⟩

/-- **Measurements are owned and freed once** in every run whose steps meet the condition. -/
theorem rmOwned_of_run {enCap : ℕ → Bool} {dialogToken : ℕ} {es : List RmEvent} {w : RmPriv}
    (hok : Meets rmStep RmOwnOk (rtwInitRm enCap dialogToken) es)
    (hrun : run rmStep (rtwInitRm enCap dialogToken) es = some w) : RmOwned w := by
  have hinit : RmKept (rtwInitRm enCap dialogToken) :=
    ⟨rmSound_init enCap dialogToken, fun _ => (nomatch ·), fun _ hb => absurd hb List.not_mem_nil,
      fun _ hb => absurd hb List.not_mem_nil⟩
  exact (run_invariant_of_meets (fun _ _ _ h hok hstep => h.step hok hstep) hinit hok hrun).owned

/-! ## A run, and four that lose something -/

instance RmOwnOk.decidable (w : RmPriv) : ∀ e, Decidable (RmOwnOk w e)
  | .radioReq .. => inferInstanceAs (Decidable (_ → _))
  | .linkReq .. | .addNbReq .. => inferInstanceAs (Decidable (_ → _))
  | .deinit _ => inferInstanceAs (Decidable (∀ prm ∈ _, ∀ o ∈ _, _))
  | .recvRep .. | .post .. | .surveyDone .. | .hdl .. | .round _ | .tick _ => isTrue trivial

/-- The state of the examples. -/
def rmFresh : RmPriv := rtwInitRm (fun _ => true) 0

def beaconTable : List RmEvent :=
  [.radioReq { aid := 1, diagToken := 1, bcnMode := 2, subs := [⟨10, true⟩] } true true, .tick true,
    .hdl 0 true, .round fun _ => {}, .round fun _ => {}, .round fun _ => {}, .round fun _ => {},
    .deinit fun _ => {}]

theorem rmOwned_beaconTable :
    ∃ w, run rmStep rmFresh beaconTable = some w ∧
      (w.gone.map (·.sent) = [[.report 1]] ∧ w.deinits = [true]) ∧ RmOwned w := by
  obtain ⟨w, hrun, hsent⟩ : ∃ w, run rmStep rmFresh beaconTable = some w ∧
      w.gone.map (·.sent) = [[.report 1]] ∧ w.deinits = [true] :=
    exists_run_of_any (by decide +kernel)
  have hmeets : Meets rmStep RmOwnOk rmFresh beaconTable := by decide +kernel
  exact ⟨w, hrun, hsent, rmOwned_of_run hmeets hrun⟩

def manyRequests : List RmEvent := (List.range 33).map fun i => .linkReq 1 (i + 1) true true

def noElement : List RmEvent := [.radioReq { aid := 1, diagToken := 1, eId := 0 } true true]

def channelReport : List RmEvent :=
  [.radioReq { aid := 1, diagToken := 1, subs := [⟨51, true⟩] } true true,
    .post 0x10100 .cancel true, .hdl 1 true, .round fun _ => {}, .round fun _ => {}]

/-- The module is shut down while a request waits. -/
def earlyShutdown : List RmEvent := [.linkReq 1 1 true true, .deinit fun _ => {}]

/-- **Two objects share a slot, an object is in no queue, memory is left behind, and a shutdown
leaves events.** -/
theorem not_rmOwned :
    (∃ w, run rmStep rmFresh manyRequests = some w ∧
      (w.obj 31).map (·.pclock) = (w.obj 32).map (·.pclock) ∧ ¬RmOwned w) ∧
    (∃ w, run rmStep rmFresh noElement = some w ∧
      ((w.obj 0).isSome = true ∧ w.rmQueue = []) ∧ ¬RmOwned w) ∧
    (∃ w, run rmStep rmFresh channelReport = some w ∧
      (w.gone.length = 1 ∧ w.blocks = [0]) ∧ ¬RmOwned w) ∧
    ∃ w, run rmStep rmFresh earlyShutdown = some w ∧ w.evQueue.length = 1 ∧ ¬RmOwned w := by
  obtain ⟨w₁, hrun₁, hslots, h31, h32⟩ : ∃ w, run rmStep rmFresh manyRequests = some w ∧
      (w.obj 31).map (·.pclock) = (w.obj 32).map (·.pclock) ∧
      (w.obj 31).map (·.pclock) = some 31 ∧ (w.obj 32).map (·.pclock) = some 31 :=
    exists_run_of_any (by decide +kernel)
  obtain ⟨w₂, hrun₂, hlive, hqueue⟩ : ∃ w, run rmStep rmFresh noElement = some w ∧
      (w.obj 0).isSome = true ∧ w.rmQueue = [] := exists_run_of_any (by decide +kernel)
  obtain ⟨w₃, hrun₃, hgone, hblocks, hnone⟩ : ∃ w, run rmStep rmFresh channelReport = some w ∧
      w.gone.length = 1 ∧ w.blocks = [0] ∧ w.rmQueue = [] := exists_run_of_any (by decide +kernel)
  obtain ⟨w₄, hrun₄, hevents, hdeinits⟩ : ∃ w, run rmStep rmFresh earlyShutdown = some w ∧
      w.evQueue.length = 1 ∧ w.deinits = [false] := exists_run_of_any (by decide +kernel)
  refine ⟨⟨w₁, hrun₁, hslots, fun h => ?_⟩, ⟨w₂, hrun₂, ⟨hlive, hqueue⟩, fun h => ?_⟩,
    ⟨w₃, hrun₃, ⟨hgone, hblocks⟩, fun h => ?_⟩, w₄, hrun₄, hevents, fun h => ?_⟩
  · obtain ⟨a, ha, hslot₁⟩ := Option.map_eq_some_iff.mp h31
    obtain ⟨b, hb, hslot₂⟩ := Option.map_eq_some_iff.mp h32
    have hown₁ := (h.own 31 a ha).2
    have hown₂ := (h.own 32 b hb).2
    rw [hslot₁] at hown₁
    rw [hslot₂, hown₁] at hown₂
    exact absurd (Option.some.inj hown₂) (by decide)
  · have hmem := (h.queued 0).mp hlive
    rw [hqueue] at hmem
    exact absurd hmem List.not_mem_nil
  · obtain ⟨id, o, ho, -⟩ := h.blocks 0 (by rw [hblocks]; exact List.mem_cons_self)
    have hmem := (h.queued id).mp (Option.isSome_of_eq_some ho)
    rw [hnone] at hmem
    exact absurd hmem List.not_mem_nil
  · have htrue := h.deinits false (by rw [hdeinits]; exact List.mem_cons_self)
    exact Bool.false_ne_true htrue

end Rtl88x2eu.Rm
