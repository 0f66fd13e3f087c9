import Mathlib.Data.Nat.ModEq
import Rtl88x2eu.Lib.Transition
import Rtl88x2eu.Recv.Observation

/-!
# What is put together from fragments

A transmitter sends fragments of any MSDUs, which pass `recvframe_chk_defrag` one by one while keys
are installed and the rest of the adapter goes its own way. A frame that is put together should be
one MSDU under one key. The code compares the fragment numbers, the packet numbers and the number
of keys installed so far; it compares neither sequence numbers nor TIDs, and a fragment that is not
encrypted passes between encrypted ones.

## Main definitions

* `Fragment`
* `World K`, `step`: fragments, key installations, anything else
* `OneMsdu`, `Fits`

## Main results

* `defragLoop_some`: what the loop has compared
* `oneMsdu_of_run`: what is put together is one MSDU if last fragments meet their own MSDU
* `not_oneMsdu`: else it is not
-/

namespace Rtl88x2eu.Defrag

/-- A fragment with the key that it was decrypted under. -/
structure Fragment (K : Type*) where
  frame : RecvFrame
  key : K
deriving DecidableEq

def tid (f : RecvFrame) : Option ℕ := if f.attrib.qos then some f.attrib.priority else none

def isAead (f : RecvFrame) : Bool := f.attrib.encrypt.isAead

def isFragment (f : RecvFrame) : Bool := f.attrib.mfrag || f.attrib.fragNum ≠ 0

structure World (K : Type*) where
  adapter : Adapter
  /-- The pairwise keys that were installed, the last one at the end. -/
  installed : List K := []
  /-- The fragments in `defrag_q`. -/
  waiting : List (Fragment K) := []
  /-- The fragments of every frame that was put together. -/
  returned : List (List (Fragment K)) := []

inductive Event (K : Type*)
  /-- A fragment, decrypted under a key, is passed to `recvframe_chk_defrag`. -/
  | fragment (f : RecvFrame) (key : K)
  /-- `set_stakey_hdl` writes a pairwise key. -/
  | install (key : K)
  /-- Anything but the fragment queue and `keytrack` of the station changes. -/
  | other (a : Adapter)

variable {K : Type*}

def step (crypto : Crypto) (s : StaId) (ta : MacAddr) (w : World K) : Event K → Option (World K)
  | .fragment f key =>
    let a := w.adapter
    if f.attrib.ta = ta ∧ rtwGetStainfo a ta = some s ∧ ∀ g ∈ (a.sta s).defragQ, g.id ≠ f.id then
      let r := recvframeChkDefrag crypto a f
      let came := w.waiting ++ [⟨f.setKeytrack (a.sta s).keytrack, key⟩]
      some { w with
        adapter := r.2
        waiting := came.filter fun x => x.frame ∈ (r.2.sta s).defragQ
        returned := if isFragment f && r.1.isSome then w.returned ++ [came] else w.returned }
    else none
  | .install key =>
    let psta := w.adapter.sta s
    some { w with
      adapter := w.adapter.setSta s { psta with keytrack := (psta.keytrack + 1) % 2 ^ 32 }
      installed := w.installed ++ [key] }
  | .other a =>
    let psta := w.adapter.sta s
    some { w with
      adapter := a.setSta s { a.sta s with defragQ := psta.defragQ, keytrack := psta.keytrack } }

/-- **One MSDU**: the fragments from number 0 on, each once and in order, of one sequence number and
TID; and under CCMP or GCMP all under one key, with consecutive packet numbers. -/
structure OneMsdu (fs : List (Fragment K)) : Prop where
  fragNum : fs.map (·.frame.attrib.fragNum) = List.range fs.length
  mfrag : fs.map (·.frame.attrib.mfrag) = List.replicate (fs.length - 1) true ++ [false]
  seqNum : ∀ x ∈ fs, ∀ y ∈ fs, x.frame.attrib.seqNum = y.frame.attrib.seqNum
  tid : ∀ x ∈ fs, ∀ y ∈ fs, tid x.frame = tid y.frame
  key : ∀ x ∈ fs, isAead x.frame → ∀ y ∈ fs, isAead y.frame ∧ y.key = x.key
  pn : ∀ x ∈ fs, isAead x.frame → ∃ pn, fs.map (ccmphPn ·.frame) = List.range' pn fs.length

/-- **The condition**: a fragment under CCMP or GCMP comes under the key that was installed last;
and the fragments that wait when a last fragment comes have its sequence number and TID, and are
under CCMP or GCMP as it is. -/
def Fits (s : StaId) (w : World K) : Event K → Prop
  | .fragment f key =>
    (isAead f → w.installed.getLast? = some key) ∧
      (f.attrib.mfrag = false → f.attrib.fragNum ≠ 0 → ∀ g ∈ (w.adapter.sta s).defragQ,
        g.attrib.seqNum = f.attrib.seqNum ∧ tid g = tid f ∧ isAead g = isAead f)
  | _ => True

theorem keytrack_defragAppend (first next : RecvFrame) (body : Bytes) :
    (defragAppend first next body).keytrack = first.keytrack := by
  unfold defragAppend recvframePullTail
  split <;> rfl

/-- **What the loop has compared** when it comes to its end. -/
theorem defragLoop_some {first g : RecvFrame} {cur pn : ℕ} {rest : List RecvFrame}
    (h : defragLoop first cur pn rest = some g) :
    rest.map (·.attrib.fragNum) = List.range' cur rest.length ∧
      (∀ x ∈ rest, x.keytrack = first.keytrack) ∧
      ((∀ x ∈ rest, isAead x) → rest.map ccmphPn = List.range' (pn + 1) rest.length) := by
  induction rest generalizing first cur pn with
  | nil => simp
  | cons next rest ih =>
    unfold defragLoop at h
    extract_lets pn' body at h
    split_ifs at h with hpn hkey hnum hroom
    obtain ⟨hnums, hkeys, hpns⟩ := ih h
    refine ⟨?_, ?_, fun haead => ?_⟩
    · rw [List.map_cons, hnums, List.length_cons, List.range'_succ, ← of_not_not hnum]
    · intro x hx
      rcases List.mem_cons.mp hx with rfl | hx
      · exact (of_not_not hkey).symm
      · exact (hkeys x hx).trans (keytrack_defragAppend _ _ _)
    · have hnext : isAead next := haead next List.mem_cons_self
      have hpn' : pn' = ccmphPn next := if_pos hnext
      have hsucc : pn' = pn + 1 := by
        by_contra hne
        exact hpn ⟨hnext, hne⟩
      rw [List.map_cons, hpns fun x hx => haead x (List.mem_cons_of_mem _ hx), List.length_cons,
        List.range'_succ, ← hpn', hsucc]

structure Compared (fs : List RecvFrame) : Prop where
  fragNum : fs.map (·.attrib.fragNum) = List.range fs.length
  keytrack : ∀ x ∈ fs, ∀ y ∈ fs, x.keytrack = y.keytrack
  pn : (∀ x ∈ fs, isAead x) → ∃ pn, fs.map ccmphPn = List.range' pn fs.length

theorem recvframeDefrag_some {a : Adapter} {s : StaId} {g : RecvFrame}
    (h : (recvframeDefrag a s).1 = some g) : Compared (a.sta s).defragQ := by
  unfold recvframeDefrag at h
  split at h
  · cases h
  · next first rest hq =>
    extract_lets a₁ curPn at h
    split at h
    swap
    · cases h
    · next f hloop =>
      split_ifs at hloop with hfirst
      obtain ⟨hnums, hkeys, hpns⟩ := defragLoop_some hloop
      rw [hq]
      have hkey : ∀ x ∈ first :: rest, x.keytrack = first.keytrack := by
        intro x hx
        rcases List.mem_cons.mp hx with rfl | hx
        · rfl
        · exact hkeys x hx
      refine ⟨?_, fun x hx y hy => (hkey x hx).trans (hkey y hy).symm, fun haead => ⟨curPn, ?_⟩⟩
      · rw [List.map_cons, hnums, hfirst, List.length_cons, List.range_eq_range', List.range'_succ]
      · have hcur : curPn = ccmphPn first := if_pos (haead first List.mem_cons_self)
        rw [List.map_cons, hpns fun x hx => haead x (List.mem_cons_of_mem _ hx), List.length_cons,
          List.range'_succ, hcur]

/-! ## What one fragment does -/

section Calls

variable {crypto : Crypto} {a : Adapter} {s : StaId} {f : RecvFrame}

theorem keytrack_rtwFreeRecvframeQueue (a : Adapter) (q : List RecvFrame) (s : StaId) :
    ((rtwFreeRecvframeQueue a q).sta s).keytrack = (a.sta s).keytrack := by
  induction q generalizing a with
  | nil => rfl
  | cons g q ih => exact ih (rtwFreeRecvframe a g.id)

theorem keytrack_setDefragQ (a : Adapter) (s : StaId) (q : List RecvFrame) :
    ((a.setDefragQ s q).sta s).keytrack = (a.sta s).keytrack := by
  simp [Adapter.setDefragQ]

theorem keytrack_recvframeDefrag (a : Adapter) (s : StaId) :
    ((recvframeDefrag a s).2.sta s).keytrack = (a.sta s).keytrack := by
  unfold recvframeDefrag
  split
  · rfl
  · next first rest _ =>
    extract_lets a₁ curPn
    have hset : (a₁.sta s).keytrack = (a.sta s).keytrack := keytrack_setDefragQ a s rest
    split
    · exact (keytrack_rtwFreeRecvframeQueue _ _ s).trans hset
    · exact (keytrack_rtwFreeRecvframeQueue _ _ s).trans hset

theorem defragQ_rtwFreeRecvframe {id : ℕ} (h : ∀ g ∈ (a.sta s).defragQ, g.id ≠ id) :
    ((rtwFreeRecvframe a id).sta s).defragQ = (a.sta s).defragQ :=
  List.filter_eq_self.mpr fun g hg => decide_eq_true (h g hg)

theorem defragQ_queueFragment (a : Adapter) (s : StaId) (f : RecvFrame) :
    ((a.queueFragment s f).sta s).defragQ = (a.sta s).defragQ ++ [f] := by
  simp [Adapter.queueFragment, Adapter.setDefragQ, Adapter.emit]

theorem keytrack_queueFragment (a : Adapter) (s : StaId) (f : RecvFrame) :
    ((a.queueFragment s f).sta s).keytrack = (a.sta s).keytrack :=
  keytrack_setDefragQ a s _

/-- What a call does with the queue of the station: nothing, or a fragment is queued, perhaps as the
first one, or all that waits is compared and goes. `r` is whether a frame is returned. -/
inductive Effect (a : Adapter) (s : StaId) (f : RecvFrame) (q : List RecvFrame) (r : Bool) : Prop
  | none (hq : q = (a.sta s).defragQ) (hr : (isFragment f && r) = false)
  | queued (pre : List RecvFrame) (hpre : pre = [] ∨ pre = (a.sta s).defragQ)
      (hq : q = pre ++ [f.setKeytrack (a.sta s).keytrack]) (hmfrag : f.attrib.mfrag = true)
      (hr : r = false)
  | last (hq : q = []) (hmfrag : f.attrib.mfrag = false) (hnum : f.attrib.fragNum ≠ 0)
      (hr : r = true → Compared ((a.sta s).defragQ ++ [f.setKeytrack (a.sta s).keytrack]))

theorem queueDefrag_effect (hfrag : isFragment f) {g : RecvFrame}
    (hg : g = f.setKeytrack (a.sta s).keytrack) :
    Effect a s f ((queueDefrag a s g).2.sta s).defragQ (queueDefrag a s g).1.isSome ∧
      ((queueDefrag a s g).2.sta s).keytrack = (a.sta s).keytrack := by
  have hmfrag : g.attrib.mfrag = f.attrib.mfrag := by rw [hg]; rfl
  unfold queueDefrag
  split_ifs with hm hnum
  · constructor
    · refine .queued [] (.inl rfl) ?_ (hmfrag ▸ hm) rfl
      rw [← hg, defragQ_queueFragment, defragQ_rtwFreeRecvframeQueue (List.Subset.refl _)]
    · exact (keytrack_queueFragment _ s g).trans (keytrack_rtwFreeRecvframeQueue a _ s)
  · constructor
    · exact .queued _ (.inr rfl) (by rw [← hg, defragQ_queueFragment]) (hmfrag ▸ hm) rfl
    · exact keytrack_queueFragment a s g
  · have hm' : f.attrib.mfrag = false := by
      rw [← hmfrag]
      exact Bool.eq_false_of_not_eq_true hm
    refine ⟨.last (recvframeDefrag_defragQ _ s) hm' ?_ fun hsome => ?_, ?_⟩
    · simpa [isFragment, hm'] using hfrag
    · obtain ⟨g', hg'⟩ := Option.isSome_iff_exists.mp hsome
      have hcompared := recvframeDefrag_some hg'
      rwa [defragQ_queueFragment, hg] at hcompared
    · exact (keytrack_recvframeDefrag _ s).trans (keytrack_queueFragment a s g)

theorem chkDefragQueue_effect (hsta : rtwGetStainfo a f.attrib.ta = some s)
    (hid : ∀ g ∈ (a.sta s).defragQ, g.id ≠ f.id) :
    Effect a s f ((chkDefragQueue a f).2.sta s).defragQ (chkDefragQueue a f).1.isSome ∧
      ((chkDefragQueue a f).2.sta s).keytrack = (a.sta s).keytrack := by
  unfold chkDefragQueue
  split_ifs with hwhole hmcast
  · refine ⟨.none rfl ?_, rfl⟩
    simp only [Bool.not_eq_true'] at hwhole
    simp [isFragment, hwhole]
  · exact ⟨.none (defragQ_rtwFreeRecvframe hid) (Bool.and_false _), rfl⟩
  · have hdefrag : defragSta a f = some s := by
      unfold defragSta
      rw [hsta]
    rw [hdefrag]
    refine queueDefrag_effect ?_ rfl
    by_contra hnot
    apply hwhole
    simpa [isFragment] using hnot

theorem Effect.mono {q : List RecvFrame} {r r' : Bool} (h : Effect a s f q r)
    (hr : r' = true → r = true) : Effect a s f q r' := by
  have hfalse (hr' : r = false) : r' = false := by
    rw [Bool.eq_false_iff] at hr' ⊢
    exact fun h => hr' (hr h)
  cases h with
  | none hq hr' =>
    refine .none hq ?_
    rw [Bool.and_eq_false_iff] at hr' ⊢
    exact hr'.imp_right hfalse
  | queued pre hpre hq hmfrag hr' => exact .queued pre hpre hq hmfrag (hfalse hr')
  | last hq hmfrag hnum hcompared => exact .last hq hmfrag hnum fun h => hcompared (hr h)

theorem chkDefragQueue_some {g : RecvFrame} {a' : Adapter}
    (hsta : rtwGetStainfo a f.attrib.ta = some s) (h : chkDefragQueue a f = (some g, a')) :
    g = f ∧ a' = a ∨ (a'.sta s).defragQ = [] := by
  have hdefrag : defragSta a f = some s := by
    unfold defragSta
    rw [hsta]
  by_cases hwhole : !f.attrib.mfrag ∧ f.attrib.fragNum = 0
  · unfold chkDefragQueue at h
    rw [if_pos hwhole] at h
    obtain ⟨hg, ha⟩ := Prod.mk.inj h
    exact .inl ⟨(Option.some.inj hg).symm, ha.symm⟩
  by_cases hmcast : f.attrib.ra.isMcast
  · unfold chkDefragQueue at h
    rw [if_neg hwhole, if_pos hmcast] at h
    cases h
  · rw [chkDefragQueue_of_sta hwhole hmcast hdefrag] at h
    unfold queueDefrag at h
    split_ifs at h
    · cases h
    · cases h
    · right
      have hq := recvframeDefrag_defragQ (a.queueFragment s (f.setKeytrack (a.sta s).keytrack)) s
      rwa [h] at hq

theorem sta_recvframeChkmic (crypto : Crypto) (a : Adapter) (g : RecvFrame) (s : StaId) :
    (recvframeChkmic crypto a g).2.2.sta s = a.sta s := by
  have hnote (micOk : Bool) (p : RxPktAttrib) : (a.noteGrpkey micOk p).sta s = a.sta s := by
    unfold Adapter.noteGrpkey
    split <;> rfl
  unfold recvframeChkmic
  split
  · rfl
  · split
    · rfl
    · split
      · rfl
      · exact hnote _ _

theorem recvframeChkDefrag_effect (crypto : Crypto) (f : RecvFrame)
    (hsta : rtwGetStainfo a f.attrib.ta = some s)
    (hid : ∀ g ∈ (a.sta s).defragQ, g.id ≠ f.id) :
    Effect a s f ((recvframeChkDefrag crypto a f).2.sta s).defragQ
        (recvframeChkDefrag crypto a f).1.isSome ∧
      ((recvframeChkDefrag crypto a f).2.sta s).keytrack = (a.sta s).keytrack := by
  obtain ⟨heffect, hkey⟩ := chkDefragQueue_effect hsta hid
  unfold recvframeChkDefrag
  rcases hqueue : chkDefragQueue a f with ⟨_ | g, a'⟩ <;> rw [hqueue] at heffect hkey
  · exact ⟨heffect, hkey⟩
  have hsome := chkDefragQueue_some hsta hqueue
  have hmic := sta_recvframeChkmic crypto a' g s
  have hgid : (recvframeChkmic crypto a' g).2.1.id = g.id := recvframeChkmic_id crypto a' g
  dsimp only
  split_ifs
  swap
  · exact ⟨heffect, hkey⟩
  rcases hchk : recvframeChkmic crypto a' g with ⟨_ | _, g', a''⟩ <;> rw [hchk] at hmic hgid
  · have hmic : a''.sta s = a'.sta s := hmic
    have hgid : g'.id = g.id := hgid
    have hfree : ((rtwFreeRecvframe a'' g'.id).sta s).defragQ = (a'.sta s).defragQ := by
      rw [← hmic]
      apply defragQ_rtwFreeRecvframe
      rw [hmic, hgid]
      rcases hsome with ⟨rfl, rfl⟩ | hnil
      · exact hid
      · rw [hnil]
        simp
    refine ⟨?_, ?_⟩
    · show Effect a s f ((rtwFreeRecvframe a'' g'.id).sta s).defragQ false
      rw [hfree]
      exact heffect.mono fun h => absurd h Bool.false_ne_true
    · exact (congrArg StaInfo.keytrack hmic).trans hkey
  · have hmic : a''.sta s = a'.sta s := hmic
    show Effect a s f (a''.sta s).defragQ true ∧ (a''.sta s).keytrack = (a.sta s).keytrack
    rw [hmic]
    exact ⟨heffect, hkey⟩

end Calls

/-! ## Runs -/

section Runs

variable {crypto : Crypto} {s : StaId} {ta : MacAddr} {start : ℕ} {w w' : World K}

def Under (start : ℕ) (installed : List K) (x : Fragment K) : Prop :=
  ∃ i, installed[i]? = some x.key ∧ x.frame.keytrack ≡ start + (i + 1) [MOD 2 ^ 32]

/-- As long as `keytrack` has not come around, it tells the keys apart. -/
theorem Under.unique {installed : List K} {x y : Fragment K} (hx : Under start installed x)
    (hy : Under start installed y) (hlt : installed.length < 2 ^ 32)
    (h : x.frame.keytrack = y.frame.keytrack) : y.key = x.key := by
  obtain ⟨i, hi, hxi⟩ := hx
  obtain ⟨j, hj, hyj⟩ := hy
  have hilt := (List.getElem?_eq_some_iff.mp hi).1
  have hjlt := (List.getElem?_eq_some_iff.mp hj).1
  have hmod : start + (i + 1) ≡ start + (j + 1) [MOD 2 ^ 32] := hxi.symm.trans (h ▸ hyj)
  have hsucc : i + 1 ≡ j + 1 [MOD 2 ^ 32] := Nat.ModEq.add_left_cancel' start hmod
  obtain rfl : i = j := (Nat.ModEq.add_right_cancel' 1 hsucc).eq_of_lt_of_lt (by omega) (by omega)
  exact Option.some.inj (hj.symm.trans hi)

theorem Under.append {installed : List K} {x : Fragment K} (hx : Under start installed x)
    (key : K) : Under start (installed ++ [key]) x := by
  obtain ⟨i, hi, hmod⟩ := hx
  refine ⟨i, ?_, hmod⟩
  rw [List.getElem?_append_left (List.getElem?_eq_some_iff.mp hi).1, hi]

/-- What holds between the steps. -/
structure Inv (s : StaId) (start : ℕ) (w : World K) : Prop where
  queue : w.waiting.map (·.frame) = (w.adapter.sta s).defragQ
  mfrag : ∀ x ∈ w.waiting, x.frame.attrib.mfrag = true
  keytrack : (w.adapter.sta s).keytrack ≡ start + w.installed.length [MOD 2 ^ 32]
  under : ∀ x ∈ w.waiting, isAead x.frame → Under start w.installed x
  returned : w.installed.length < 2 ^ 32 → ∀ fs ∈ w.returned, OneMsdu fs

theorem oneMsdu_of_compared {waiting : List (Fragment K)} {last : Fragment K} {installed : List K}
    (hlt : installed.length < 2 ^ 32)
    (hcompared : Compared ((waiting ++ [last]).map (·.frame)))
    (hmfrag : ∀ x ∈ waiting, x.frame.attrib.mfrag = true)
    (hlast : last.frame.attrib.mfrag = false)
    (hunder : ∀ x ∈ waiting ++ [last], isAead x.frame → Under start installed x)
    (hsame : ∀ x ∈ waiting ++ [last], x.frame.attrib.seqNum = last.frame.attrib.seqNum ∧
      tid x.frame = tid last.frame ∧ isAead x.frame = isAead last.frame) :
    OneMsdu (waiting ++ [last]) := by
  obtain ⟨hnums, hkeys, hpns⟩ := hcompared
  rw [List.map_map, List.length_map] at hnums
  have haead : ∀ x ∈ waiting ++ [last], isAead x.frame → ∀ y ∈ waiting ++ [last],
      isAead y.frame := by
    intro x hx h y hy
    rwa [(hsame y hy).2.2, ← (hsame x hx).2.2]
  refine ⟨hnums, ?_, ?_, ?_, ?_, ?_⟩
  · have hwaiting : waiting.map (·.frame.attrib.mfrag) = List.replicate waiting.length true := by
      rw [List.eq_replicate_iff, List.length_map]
      refine ⟨rfl, fun b hb => ?_⟩
      obtain ⟨x, hx, rfl⟩ := List.mem_map.mp hb
      exact hmfrag x hx
    rw [List.map_append, hwaiting, List.map_singleton, hlast, List.length_append,
      List.length_singleton, Nat.add_sub_cancel]
  · intro x hx y hy
    exact (hsame x hx).1.trans (hsame y hy).1.symm
  · intro x hx y hy
    exact (hsame x hx).2.1.trans (hsame y hy).2.1.symm
  · intro x hx h y hy
    refine ⟨haead x hx h y hy, ?_⟩
    refine (hunder x hx h).unique (hunder y hy (haead x hx h y hy)) hlt ?_
    exact hkeys _ (List.mem_map_of_mem hx) _ (List.mem_map_of_mem hy)
  · intro x hx h
    have hall : ∀ f ∈ (waiting ++ [last]).map (·.frame), isAead f := by
      intro f hf
      obtain ⟨y, hy, rfl⟩ := List.mem_map.mp hf
      exact haead x hx h y hy
    obtain ⟨pn, hpn⟩ := hpns hall
    rw [List.map_map, List.length_map] at hpn
    exact ⟨pn, hpn⟩

/-- The fragments that wait after a call are those in the queue. -/
theorem Effect.waiting {a : Adapter} {f : RecvFrame} {q : List RecvFrame} {r : Bool}
    {waiting : List (Fragment K)} {last : Fragment K} (h : Effect a s f q r)
    (hqueue : waiting.map (·.frame) = (a.sta s).defragQ)
    (hframe : last.frame = f.setKeytrack (a.sta s).keytrack)
    (hid : ∀ g ∈ (a.sta s).defragQ, g.id ≠ f.id)
    (hmfrag : ∀ x ∈ waiting, x.frame.attrib.mfrag = true) :
    ((waiting ++ [last]).filter (·.frame ∈ q)).map (·.frame) = q ∧
      ∀ x ∈ (waiting ++ [last]).filter (·.frame ∈ q), x.frame.attrib.mfrag = true := by
  have hmem (x : Fragment K) (hx : x ∈ waiting) : x.frame ∈ (a.sta s).defragQ := by
    rw [← hqueue]
    exact List.mem_map_of_mem hx
  have hne : ∀ x ∈ waiting, x.frame ≠ last.frame := by
    intro x hx heq
    apply hid _ (hmem x hx)
    rw [heq, hframe]
    rfl
  have hlast : last.frame ∉ (a.sta s).defragQ := by
    rw [← hqueue]
    intro hmem
    obtain ⟨x, hx, heq⟩ := List.mem_map.mp hmem
    exact hne x hx heq
  cases h with
  | none hq =>
    have hfilter : (waiting ++ [last]).filter (·.frame ∈ q) = waiting := by
      rw [hq, List.filter_append, List.filter_eq_self.mpr fun x hx => decide_eq_true (hmem x hx),
        List.filter_singleton, decide_eq_false hlast, cond_false, List.append_nil]
    rw [hfilter]
    exact ⟨hqueue.trans hq.symm, hmfrag⟩
  | queued pre hpre hq hf =>
    have hlastMfrag : last.frame.attrib.mfrag = true := by rw [hframe]; exact hf
    rw [← hframe] at hq
    have hlastMem : last.frame ∈ q := by rw [hq]; simp
    refine ⟨?_, fun x hx => ?_⟩
    · rcases hpre with rfl | rfl
      · have hnone : waiting.filter (·.frame ∈ q) = [] := by
          refine List.filter_eq_nil_iff.mpr fun x hx => ?_
          rw [hq]
          simpa using hne x hx
        rw [List.filter_append, hnone, List.filter_singleton, decide_eq_true hlastMem, hq]
        rfl
      · have hall : waiting.filter (·.frame ∈ q) = waiting := by
          refine List.filter_eq_self.mpr fun x hx => decide_eq_true ?_
          rw [hq]
          exact List.mem_append_left _ (hmem x hx)
        rw [List.filter_append, hall, List.filter_singleton, decide_eq_true hlastMem, cond_true,
          List.map_append, hqueue, hq]
        rfl
    · rcases List.mem_append.mp (List.mem_filter.mp hx).1 with hx | hx
      · exact hmfrag x hx
      · rw [List.mem_singleton.mp hx]
        exact hlastMfrag
  | last hq =>
    subst hq
    simp

theorem Inv.fragment {f : RecvFrame} {key : K} (h : Inv s start w)
    (hok : Fits s w (.fragment f key)) (hstep : step crypto s ta w (.fragment f key) = some w') :
    Inv s start w' := by
  unfold step at hstep
  dsimp only at hstep
  by_cases henabled : f.attrib.ta = ta ∧ rtwGetStainfo w.adapter ta = some s ∧
      ∀ g ∈ (w.adapter.sta s).defragQ, g.id ≠ f.id
  swap
  · rw [if_neg henabled] at hstep
    cases hstep
  rw [if_pos henabled] at hstep
  obtain rfl := Option.some.inj hstep
  obtain ⟨hta, hsta, hid⟩ := henabled
  obtain ⟨heffect, hkeytrack⟩ := recvframeChkDefrag_effect crypto f (hta.symm ▸ hsta) hid
  generalize hlast : (⟨f.setKeytrack (w.adapter.sta s).keytrack, key⟩ : Fragment K) = last
  have hframe : last.frame = f.setKeytrack (w.adapter.sta s).keytrack := by rw [← hlast]
  have hunder : ∀ x ∈ w.waiting ++ [last], isAead x.frame → Under start w.installed x := by
    intro x hx haead
    rcases List.mem_append.mp hx with hx | hx
    · exact h.under x hx haead
    obtain rfl := List.mem_singleton.mp hx
    have hinstalled : w.installed.getLast? = some x.key := by
      rw [← hlast]
      apply hok.1
      rwa [hframe] at haead
    rw [List.getLast?_eq_getElem?] at hinstalled
    have hpos := (List.getElem?_eq_some_iff.mp hinstalled).1
    refine ⟨_, hinstalled, ?_⟩
    rw [hframe, Nat.sub_add_cancel (by omega)]
    exact h.keytrack
  obtain ⟨hqueue, hmfrag⟩ := heffect.waiting h.queue hframe hid h.mfrag
  refine ⟨hqueue, hmfrag, ?_, fun x hx => hunder x (List.mem_filter.mp hx).1, fun hlt => ?_⟩
  · show ((recvframeChkDefrag crypto w.adapter f).2.sta s).keytrack ≡ _ [MOD _]
    rw [hkeytrack]
    exact h.keytrack
  dsimp only
  split_ifs with hret
  swap
  · exact h.returned hlt
  intro fs hfs
  rcases List.mem_append.mp hfs with hfs | hfs
  · exact h.returned hlt fs hfs
  obtain rfl := List.mem_singleton.mp hfs
  obtain ⟨hfrag, hr⟩ := Bool.and_eq_true_iff.mp hret
  cases heffect with
  | none _ hnone =>
    rw [hnone] at hret
    exact absurd hret Bool.false_ne_true
  | queued _ _ _ _ hnone =>
    rw [hnone] at hr
    exact absurd hr Bool.false_ne_true
  | last _ hm hnum hcompared =>
    refine oneMsdu_of_compared hlt ?_ h.mfrag ?_ hunder ?_
    · rw [List.map_append, h.queue, List.map_singleton, hframe]
      exact hcompared hr
    · rw [hframe]
      exact hm
    · intro x hx
      rcases List.mem_append.mp hx with hx | hx
      · rw [hframe]
        apply hok.2 hm hnum
        rw [← h.queue]
        exact List.mem_map_of_mem hx
      · rw [List.mem_singleton.mp hx]
        exact ⟨rfl, rfl, rfl⟩

theorem Inv.install {key : K} (h : Inv s start w)
    (hstep : step crypto s ta w (.install key) = some w') : Inv s start w' := by
  obtain rfl := Option.some.inj hstep
  refine ⟨?_, h.mfrag, ?_, fun x hx haead => (h.under x hx haead).append key, fun hlt => ?_⟩
  · simpa using h.queue
  · rw [List.length_append, List.length_singleton, setSta_sta]
    exact (Nat.mod_modEq _ _).trans (h.keytrack.add_right 1)
  · apply h.returned
    rw [List.length_append] at hlt
    omega

theorem Inv.other {a : Adapter} (h : Inv s start w)
    (hstep : step crypto s ta w (.other a) = some w') : Inv s start w' := by
  obtain rfl := Option.some.inj hstep
  refine ⟨?_, h.mfrag, ?_, h.under, h.returned⟩
  · simpa using h.queue
  · simpa using h.keytrack

theorem Inv.init {a : Adapter} (h : (a.sta s).defragQ = []) :
    Inv s (a.sta s).keytrack ({ adapter := a } : World K) where
  queue := h.symm
  mfrag := by simp
  keytrack := Nat.ModEq.refl _
  under := by simp
  returned := by simp

theorem Inv.step {e : Event K} (h : Inv s start w) (hok : Fits s w e)
    (hstep : step crypto s ta w e = some w') : Inv s start w' := by
  cases e with
  | fragment f key => exact h.fragment hok hstep
  | install key => exact h.install hstep
  | other a => exact h.other hstep

end Runs

instance Fits.decidable [DecidableEq K] (s : StaId) (w : World K) :
    ∀ e, Decidable (Fits s w e)
  | .fragment _ _ => inferInstanceAs (Decidable (_ ∧ _))
  | .install _ => isTrue trivial
  | .other _ => isTrue trivial

open Transition

/-- **What is put together is one MSDU**, in every run in which last fragments meet fragments of
their own MSDU, as long as fewer than `2 ^ 32` keys are installed. -/
theorem oneMsdu_of_run {crypto : Crypto} {s : StaId} {ta : MacAddr} {a : Adapter}
    {es : List (Event K)} {w : World K} (hempty : (a.sta s).defragQ = [])
    (hok : Meets (step crypto s ta) (Fits s) { adapter := a } es)
    (hrun : run (step crypto s ta) { adapter := a } es = some w)
    (hkeys : w.installed.length < 2 ^ 32) : ∀ fs ∈ w.returned, OneMsdu fs := by
  have hinv : Inv s (a.sta s).keytrack w :=
    run_invariant_of_meets (fun _ _ _ h hok hstep => h.step hok hstep) (Inv.init hempty) hok hrun
  exact hinv.returned hkeys

/-- Ciphers that open nothing. -/
def idleCrypto : Crypto where
  arcfour _ p := p
  getcrc32 _ := [0, 0, 0, 0]
  tkipRc4key _ _ _ := []
  seccalctkipmic _ _ _ _ := []
  aesCcmAd _ _ _ _ _ _ := none
  aesGcmAd _ _ _ _ _ := none
  calculateBipMic _ _ _ _ _ := none

def peerAddr : MacAddr := ⟨2, 0, 0, 0, 0, 1⟩

def peerAdapter : Adapter :=
  { staHash := [0], sta := fun _ => { macAddr := peerAddr } }

def ccmpFragment (id seqNum fragNum : ℕ) (mfrag : Bool) (pn : UInt8) : RecvFrame where
  id := id
  rxData := List.replicate 26 0 ++ [pn, 0, 0, 0x20, 0, 0, 0, 0, 1, 2, 3]
  tailRoom := 100
  attrib :=
    { ta := peerAddr, hdrlen := 26, ivLen := 8, qos := true, seqNum := seqNum, fragNum := fragNum
      mfrag := mfrag, privacy := true, encrypt := .aes }

theorem oneMsdu_ccmpPair : ∃ w : World ℕ,
    run (step idleCrypto 0 peerAddr) { adapter := peerAdapter }
        [.install 7, .fragment (ccmpFragment 1 5 0 true 1) 7,
          .fragment (ccmpFragment 2 5 1 false 2) 7] = some w ∧
      w.returned.map List.length = [2] ∧ ∀ fs ∈ w.returned, OneMsdu fs := by
  obtain ⟨w, hrun, hlength, hkeys⟩ : ∃ w : World ℕ,
      run (step idleCrypto 0 peerAddr) { adapter := peerAdapter }
        [.install 7, .fragment (ccmpFragment 1 5 0 true 1) 7,
          .fragment (ccmpFragment 2 5 1 false 2) 7] = some w ∧
        w.returned.map List.length = [2] ∧ w.installed.length < 2 ^ 32 :=
    exists_run_of_any (by decide +kernel)
  exact ⟨w, hrun, hlength, oneMsdu_of_run rfl (by decide +kernel) hrun hkeys⟩

/-- **Fragments of two MSDUs are put together**: the first of sequence number 5 and the last of
sequence number 6. -/
theorem not_oneMsdu :
    ¬ ∀ (crypto : Crypto) (s : StaId) (ta : MacAddr) (a : Adapter) (es : List (Event ℕ))
        (w : World ℕ), (a.sta s).defragQ = [] →
      run (step crypto s ta) { adapter := a } es = some w → ∀ fs ∈ w.returned, OneMsdu fs := by
  intro hclaim
  obtain ⟨w, hrun, hmixed⟩ : ∃ w : World ℕ,
      run (step idleCrypto 0 peerAddr) { adapter := peerAdapter }
        [.install 7, .fragment (ccmpFragment 1 5 0 true 1) 7,
          .fragment (ccmpFragment 2 6 1 false 2) 7] = some w ∧
        ∃ fs ∈ w.returned, ∃ x ∈ fs, ∃ y ∈ fs, x.frame.attrib.seqNum ≠ y.frame.attrib.seqNum :=
    exists_run_of_any (by decide +kernel)
  obtain ⟨fs, hfs, x, hx, y, hy, hne⟩ := hmixed
  exact hne ((hclaim _ _ _ _ _ w rfl hrun fs hfs).seqNum x hx y hy)

end Rtl88x2eu.Defrag
